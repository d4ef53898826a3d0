/-
**Records of a fixed size: fields at offsets, reserved ranges, and a checksum over the whole.**

A fixed-layout codec writes its fields one after the other into a zeroed buffer and finally stores a
checksum of the result in a range left for it.  Its decoder reads the same offsets back and requires
every byte outside the fields to be zero.  Whether such a codec is *canonical* — whether every
accepted buffer is the encoding of what it decodes to — is a question about one thing only: do the
fields together with the ranges checked to be zero cover the buffer, each byte once?  This module
states that condition as a tiling and proves that it is enough.

The blocks of a volume, the packets of the wire protocol and the messages between services are such
records.  Reading a word inside one does not trap.

* `render_tiles` — **a buffer whose reserved ranges are zero is the rendering of its own
  fields**;
* `StampedLayout.stamp_fieldsOf` — **canonicity of a stamped record**;
* `Rust.getU16_buf` and its companions — reads of a record with the bounds resolved;
* `Rust.eq_render_iff` — which buffers are the rendering of given fields.
-/

import NullStar.Outcome

set_option autoImplicit false

namespace Bytes

open List

/-! ### Zero ranges -/

/-- Every byte is zero. -/
def allZero (bs : List UInt8) : Bool := bs.all (· == 0)

variable {bs : List UInt8} {n lo : ℕ}

theorem allZero_iff_getD : allZero bs = true ↔ ∀ i < bs.length, bs.getD i 0 = 0 := by
  simp only [allZero, all_eq_true, beq_iff_eq]
  constructor
  · intro h i hi
    rw [getD_eq_getElem _ _ hi]
    exact h _ (getElem_mem hi)
  · intro h x hx
    obtain ⟨i, hi, rfl⟩ := getElem_of_mem hx
    have := h i hi
    rwa [getD_eq_getElem _ _ hi] at this

theorem allZero_iff_replicate : allZero bs = true ↔ bs = replicate bs.length 0 := by
  simp [allZero, eq_replicate_iff]

@[simp] theorem allZero_replicate (w : ℕ) : allZero (replicate w 0) = true := by
  rw [allZero_iff_replicate, length_replicate]

theorem allZero_flatMap {rs : List (ℕ × ℕ)} : allZero (rs.flatMap fun r => slice bs r.1 r.2) = true ↔
      ∀ r ∈ rs, allZero (slice bs r.1 r.2) = true := by
  simp [allZero]

theorem Buf.allZero_slice (b : Buf n) {o w : ℕ} (h : o + w ≤ n) :
    allZero (slice b.1 o w) = true ↔ ∀ i, o ≤ i → i < o + w → b.byteAt i = 0 := by
  rw [allZero_iff_getD, b.length_slice h]
  constructor
  · intro hz i ho hi
    have := hz (i - o) (by omega)
    rwa [b.getD_slice_byteAt (by omega), show o + (i - o) = i by omega] at this
  · intro hz i hi
    rw [b.getD_slice_byteAt hi]
    exact hz _ (by omega) (by omega)

/-! ### Rendering fields -/

/-- A field of a record: its offset and its bytes. -/
abbrev Field := ℕ × List UInt8

/-- The record whose fields are `fs` and whose other bytes are zero. -/
def render (n : ℕ) (fs : List Field) : Buf n := fs.foldl (fun b f => b.put f.1 f.2) (Buf.zero n)

/-- The fields lie one behind the other inside `n` bytes. -/
def Fits (n : ℕ) (fs : List Field) : Prop :=
  (fs.map fun f => (f.1, f.2.length)).Pairwise (fun r s => r.1 + r.2 ≤ s.1) ∧
    ∀ r ∈ fs.map fun f => (f.1, f.2.length), r.1 + r.2 ≤ n

section Render

variable {n i o w : ℕ} {fs : List Field} {f : Field}

theorem byteAt_foldl_put_of_not_mem (fs : List Field) (b : Buf n)
    (h : ∀ f ∈ fs, i < f.1 ∨ f.1 + f.2.length ≤ i) :
    (fs.foldl (fun b f => b.put f.1 f.2) b).byteAt i = b.byteAt i := by
  induction fs generalizing b with
  | nil => rfl
  | cons f fs ih =>
    rw [foldl_cons, ih _ fun g hg => h g (mem_cons_of_mem _ hg)]
    exact b.byteAt_put_of_not_mem (h f mem_cons_self)

/-- A byte that belongs to no field is zero. -/
theorem byteAt_render_of_not_mem (h : ∀ f ∈ fs, i < f.1 ∨ f.1 + f.2.length ≤ i) :
    (render n fs).byteAt i = 0 := by
  rw [render, byteAt_foldl_put_of_not_mem fs _ h, Buf.byteAt_zero]

theorem byteAt_foldl_put_of_mem (b : Buf n) (hp : fs.Pairwise fun f g => f.1 + f.2.length ≤ g.1)
    (hf : f ∈ fs) (h1 : f.1 ≤ i) (h2 : i < f.1 + f.2.length) (hn : i < n) :
    (fs.foldl (fun b f => b.put f.1 f.2) b).byteAt i = f.2.getD (i - f.1) 0 := by
  induction fs generalizing b with
  | nil => simp at hf
  | cons g fs ih =>
    rw [pairwise_cons] at hp
    rw [foldl_cons]
    rcases mem_cons.1 hf with rfl | hf
    · -- the fields behind `f` start behind its end, so none of them touches `i`
      rw [byteAt_foldl_put_of_not_mem fs _ fun g hg => .inl (by have := hp.1 g hg; omega),
        b.byteAt_put _ _ hn, if_pos ⟨h1, h2⟩]
    · exact ih _ hp.2 hf

theorem Fits.pairwise (h : Fits n fs) : fs.Pairwise fun f g => f.1 + f.2.length ≤ g.1 := by
  simpa [pairwise_map] using h.1

theorem Fits.le (h : Fits n fs) (hf : f ∈ fs) : f.1 + f.2.length ≤ n := h.2 _ (mem_map_of_mem hf)

/-- Reading a field of a rendered record gives the field. -/
theorem slice_render (h : Fits n fs) {v : List UInt8} (hf : (o, v) ∈ fs) (hw : w = v.length) :
    slice (render n fs).1 o w = v := by
  subst hw
  have hn : o + v.length ≤ n := h.le hf
  refine ext_getD ((render n fs).length_slice hn) ?_
  intro i hi
  rw [Buf.getD_slice_byteAt _ hi, render,
    byteAt_foldl_put_of_mem _ h.pairwise hf (by simp) (by simpa using hi) (by omega)]
  simp

/-- A range between the fields of a rendered record is zero. -/
theorem allZero_render (hn : o + w ≤ n) (h : ∀ f ∈ fs, o + w ≤ f.1 ∨ f.1 + f.2.length ≤ o) :
    allZero (slice (render n fs).1 o w) = true := by
  rw [Buf.allZero_slice _ hn]
  intro i h1 h2
  refine byteAt_render_of_not_mem fun f hf => ?_
  have := h f hf
  omega

theorem Fits.of_cons {gs : List Field} (h : Fits n (fs ++ f :: gs)) : Fits n (fs ++ gs) := by
  have hsub : (fs ++ gs).Sublist (fs ++ f :: gs) := .append_left (sublist_cons_self _ _) fs
  exact ⟨h.1.sublist (hsub.map _), fun r hr => h.2 r ((hsub.map _).subset hr)⟩

/-- A field of zeros may be left out: the buffer is zero to begin with. -/
theorem render_zero_field {gs : List Field} (h : Fits n (fs ++ (o, replicate w 0) :: gs)) :
    render n (fs ++ (o, replicate w 0) :: gs) = render n (fs ++ gs) := by
  have hp := h.pairwise
  have hsub : (fs ++ gs).Sublist (fs ++ (o, replicate w 0) :: gs) :=
    Sublist.append_left (sublist_cons_self _ _) fs
  refine Buf.ext_byteAt fun i hi => ?_
  by_cases hmem : ∃ f ∈ fs ++ gs, f.1 ≤ i ∧ i < f.1 + f.2.length
  · obtain ⟨f, hf, h1, h2⟩ := hmem
    rw [render, render, byteAt_foldl_put_of_mem _ hp (hsub.subset hf) h1 h2 hi,
      byteAt_foldl_put_of_mem _ (hp.sublist hsub) hf h1 h2 hi]
  · have hnone : ∀ f ∈ fs ++ gs, i < f.1 ∨ f.1 + f.2.length ≤ i := by
      intro f hf
      by_contra hcon
      exact hmem ⟨f, hf, by omega, by omega⟩
    rw [byteAt_render_of_not_mem hnone]
    by_cases hin : o ≤ i ∧ i < o + w
    · rw [render, byteAt_foldl_put_of_mem _ hp (f := (o, replicate w 0)) (by simp) hin.1
        (by simpa using hin.2) hi]
      simp
    · refine byteAt_render_of_not_mem fun f hf => ?_
      rcases mem_append.1 hf with hf | hf
      · exact hnone f (mem_append_left _ hf)
      · rcases mem_cons.1 hf with rfl | hf
        · simp only [length_replicate]
          omega
        · exact hnone f (mem_append_right _ hf)

end Render

/-! ### Tilings -/

/-- A range of a record that is either a field or reserved to be zero. -/
structure Tile where
  (offset length : ℕ)
  reserved : Bool
  deriving DecidableEq

/-- A field of a record layout. -/
def Tile.field (offset length : ℕ) : Tile := ⟨offset, length, false⟩

/-- A range that has to be zero. -/
def Tile.gap (offset length : ℕ) : Tile := ⟨offset, length, true⟩

/-- The tiles cover the bytes from `lo` up to `n`, each byte once and in order. -/
def Tiled (n : ℕ) : ℕ → List Tile → Prop
  | lo, [] => lo = n
  | lo, t :: ts => t.offset = lo ∧ Tiled n (lo + t.length) ts

instance decidableTiled (n : ℕ) : ∀ (lo : ℕ) (ts : List Tile), Decidable (Tiled n lo ts)
  | lo, [] => inferInstanceAs (Decidable (lo = n))
  | lo, t :: ts =>
    have := decidableTiled n (lo + t.length) ts
    inferInstanceAs (Decidable (t.offset = lo ∧ Tiled n (lo + t.length) ts))

variable {ts : List Tile}

theorem Tiled.append {m : ℕ} {us : List Tile} (h1 : Tiled m lo ts) (h2 : Tiled n m us) :
    Tiled n lo (ts ++ us) := by
  induction ts generalizing lo with
  | nil => rw [Tiled] at h1; subst h1; exact h2
  | cons t ts ih => exact ⟨h1.1, ih h1.2⟩

/-- An array of `k` items of `w` bytes each. -/
theorem tiled_array (lo w k : ℕ) :
    Tiled (lo + k * w) lo ((range k).map fun j => Tile.field (lo + j * w) w) := by
  induction k with
  | zero => simp [Tiled]
  | succ k ih =>
    rw [range_succ, map_append]
    refine ih.append ?_
    refine ⟨rfl, ?_⟩
    change lo + k * w + w = lo + (k + 1) * w
    ring

/-- Fields are not reserved. -/
theorem filter_fields {ι : Type} (l : List ι) (o w : ι → ℕ) :
    (l.map fun i => Tile.field (o i) (w i)).filter (fun t => !t.reserved) =
      l.map fun i => Tile.field (o i) (w i) := by
  rw [filter_eq_self, forall_mem_map]
  exact fun _ _ => rfl

theorem Tiled.le (h : Tiled n lo ts) : lo ≤ n := by
  induction ts generalizing lo with
  | nil => exact le_of_eq h
  | cons t ts ih => have := ih h.2; omega

variable {t : Tile}

theorem Tiled.end_le (h : Tiled n lo ts) (ht : t ∈ ts) : t.offset + t.length ≤ n := by
  induction ts generalizing lo with
  | nil => simp at ht
  | cons s ts ih =>
    rcases mem_cons.1 ht with rfl | ht
    · have := h.1
      have := h.2.le
      omega
    · exact ih h.2 ht

theorem Tiled.offset_le (h : Tiled n lo ts) (ht : t ∈ ts) : lo ≤ t.offset := by
  induction ts generalizing lo with
  | nil => simp at ht
  | cons s ts ih =>
    rcases mem_cons.1 ht with rfl | ht
    · exact le_of_eq h.1.symm
    · have := ih h.2 ht
      omega

theorem Tiled.pairwise (h : Tiled n lo ts) : ts.Pairwise fun s t => s.offset + s.length ≤ t.offset := by
  induction ts generalizing lo with
  | nil => exact .nil
  | cons s ts ih =>
    refine .cons ?_ (ih h.2)
    intro t ht
    have := h.1
    have := h.2.offset_le ht
    omega

/-- Two different tiles do not overlap. -/
theorem Tiled.disjoint (h : Tiled n lo ts) {s : Tile} (hs : s ∈ ts) (ht : t ∈ ts) (hne : s ≠ t) :
    s.offset + s.length ≤ t.offset ∨ t.offset + t.length ≤ s.offset := by
  induction ts generalizing lo with
  | nil => simp at hs
  | cons u ts ih =>
    have hu := h.1
    rcases mem_cons.1 hs with rfl | hs' <;> rcases mem_cons.1 ht with rfl | ht'
    · exact absurd rfl hne
    · have := h.2.offset_le ht'
      omega
    · have := h.2.offset_le hs'
      omega
    · exact ih h.2 hs' ht'

/-- Every byte belongs to a tile. -/
theorem Tiled.exists_mem (h : Tiled n lo ts) {i : ℕ} (h1 : lo ≤ i) (h2 : i < n) :
    ∃ t ∈ ts, t.offset ≤ i ∧ i < t.offset + t.length := by
  induction ts generalizing lo with
  | nil => rw [Tiled] at h; omega
  | cons s ts ih =>
    have hs := h.1
    by_cases hi : i < lo + s.length
    · exact ⟨s, mem_cons_self, by omega, by omega⟩
    · obtain ⟨t, ht, h⟩ := ih h.2 (by omega)
      exact ⟨t, mem_cons_of_mem _ ht, h⟩

/-- The fields of a buffer under a layout. -/
def fieldsOf {n : ℕ} (b : Buf n) (ts : List Tile) : List Field :=
  (ts.filter fun t => !t.reserved).map fun t => (t.offset, slice b.1 t.offset t.length)

theorem mem_fieldsOf {b : Buf n} (ht : t ∈ ts) (hr : t.reserved = false) :
    (t.offset, slice b.1 t.offset t.length) ∈ fieldsOf b ts := by
  simp only [fieldsOf, mem_map, mem_filter]
  exact ⟨t, ⟨ht, by simp [hr]⟩, rfl⟩

/-- The fields lie where the layout has its fields. -/
def Follows (ts : List Tile) (fs : List Field) : Prop :=
  (fs.map fun f => (f.1, f.2.length)) = (ts.filter fun t => !t.reserved).map fun t => (t.offset, t.length)

section Follows

variable {n : ℕ} {ts : List Tile} {fs : List Field}

/-- Fields that follow a layout lie one behind the other. -/
theorem Follows.fits (h : Follows ts fs) (ht : Tiled n 0 ts) : Fits n fs := by
  constructor
  · rw [h, pairwise_map]
    exact ht.pairwise.filter _
  · rw [h]
    intro r hr
    obtain ⟨t, hmem, rfl⟩ := mem_map.1 hr
    exact ht.end_le (mem_filter.1 hmem).1

/-- Fields that follow a layout stay clear of its reserved ranges. -/
theorem Follows.disjoint (h : Follows ts fs) (ht : Tiled n 0 ts) {t : Tile} (hmem : t ∈ ts)
    (hr : t.reserved = true) : ∀ f ∈ fs, t.offset + t.length ≤ f.1 ∨ f.1 + f.2.length ≤ t.offset := by
  intro f hf
  have hrange : (f.1, f.2.length) ∈ (ts.filter fun t => !t.reserved).map
      fun t => (t.offset, t.length) := by
    rw [← h]
    exact mem_map_of_mem hf
  obtain ⟨s, hs, heq⟩ := mem_map.1 hrange
  rw [mem_filter] at hs
  have hne : t ≠ s := by
    rintro rfl
    simp [hr] at hs
  have hdis := ht.disjoint hmem hs.1 hne
  rw [Prod.mk.injEq] at heq
  rwa [← heq.1, ← heq.2]

/-- The fields a layout cuts out of a buffer. -/
theorem follows_fieldsOf (b : Buf n) (ht : Tiled n 0 ts) : Follows ts (fieldsOf b ts) := by
  rw [Follows, fieldsOf, map_map]
  refine map_congr_left fun t hmem => ?_
  have := ht.end_le (mem_filter.1 hmem).1
  simp [b.length_slice this]

end Follows

/-- **A buffer whose reserved ranges are zero is the rendering of its own fields.** -/
theorem render_tiles (b : Buf n) (h : Tiled n 0 ts)
    (hz : ∀ t ∈ ts, t.reserved = true → allZero (slice b.1 t.offset t.length) = true) :
    render n (fieldsOf b ts) = b := by
  refine Buf.ext_byteAt fun i hi => ?_
  obtain ⟨t, ht, h1, h2⟩ := h.exists_mem i.zero_le hi
  have hend := h.end_le ht
  cases hr : t.reserved with
  | false =>
    have hmem := mem_fieldsOf (b := b) ht hr
    have hlen : (slice b.1 t.offset t.length).length = t.length := b.length_slice hend
    have hfits := (follows_fieldsOf b h).fits h
    rw [render, byteAt_foldl_put_of_mem _ hfits.pairwise hmem h1 (by simpa [hlen]) hi,
      b.getD_slice_byteAt (by omega)]
    congr 1
    omega
  | true =>
    -- a byte of a reserved range is zero in `b`, and no field is copied over it
    rw [(b.allZero_slice hend).1 (hz t ht hr) i h1 h2]
    refine byteAt_render_of_not_mem fun f hf => ?_
    obtain ⟨s, hs, rfl⟩ := mem_map.1 hf
    have hs := mem_filter.1 hs
    have hlen : (slice b.1 s.offset s.length).length = s.length := b.length_slice (h.end_le hs.1)
    have hne : s ≠ t := by rintro rfl; simp [hr] at hs
    have hsym := h.disjoint hs.1 ht hne
    simp only
    omega

/-! ### Checksums -/

namespace Buf

variable {n : ℕ}

/-- Zeroing `w` bytes from offset `o` on. -/
def clear (b : Buf n) (o w : ℕ) : Buf n := b.put o (List.replicate w 0)

variable (checksum : List UInt8 → UInt32)

/-- Storing the four-byte checksum of the buffer at offset `o`. -/
def stamp (o : ℕ) (b : Buf n) : Buf n :=
  b.put o (toLe 4 (checksum b.1).toNat)

variable {o : ℕ} (b : Buf n)

theorem slice_stamp_of_disjoint {o' w : ℕ} (hw : o' + w ≤ n) (h : o' + w ≤ o ∨ o + 4 ≤ o') :
    slice (b.stamp checksum o).1 o' w = slice b.1 o' w :=
  b.slice_put_of_disjoint hw (by simpa using h)

theorem slice_clear_of_disjoint {k : ℕ} {o' w : ℕ} (hw : o' + w ≤ n) (h : o' + w ≤ o ∨ o + k ≤ o') :
    slice (b.clear o k).1 o' w = slice b.1 o' w :=
  b.slice_put_of_disjoint hw (by simpa using h)

theorem slice_clear_self {k : ℕ} (h : o + k ≤ n) : slice (b.clear o k).1 o k = replicate k 0 := by
  have hl : o + (replicate k (0 : UInt8)).length ≤ n := by simpa using h
  simpa [clear] using b.slice_put_self hl

theorem slice_stamp_self (h : o + 4 ≤ n) :
    slice (b.stamp checksum o).1 o 4 = toLe 4 (checksum b.1).toNat := by
  have hl : o + (toLe 4 (checksum b.1).toNat).length ≤ n := by simpa using h
  simpa [stamp] using b.slice_put_self hl

/-- Clearing a checksum that was stored in a zero range gives back the buffer without it. -/
theorem clear_stamp (h : o + 4 ≤ n) (hz : allZero (slice b.1 o 4) = true) :
    (b.stamp checksum o).clear o 4 = b := by
  rw [clear, stamp, b.put_put_self (by simp)]
  have := allZero_iff_replicate.1 hz
  rw [b.length_slice h] at this
  rw [← this, b.put_slice_self h]

/-- A buffer that carries the checksum of its cleared form is the stamping of that form. -/
theorem stamp_clear (h : o + 4 ≤ n) (hc : ofLe (slice b.1 o 4) = (checksum (b.clear o 4).1).toNat) :
    (b.clear o 4).stamp checksum o = b := by
  rw [stamp, ← hc, toLe_ofLe (b.length_slice h), clear, put_put_self _ (by simp [b.length_slice h]),
    b.put_slice_self h]

end Buf

/-! ### Stamped layouts -/

/-- A layout of `n` bytes that reserves the four bytes at offset `o` for a checksum. -/
structure StampedLayout (n o : ℕ) where
  tiles : List Tile
  tiled : Tiled n 0 tiles
  stamp_mem : Tile.gap o 4 ∈ tiles

namespace StampedLayout

variable {n o : ℕ} (L : StampedLayout n o) (checksum : List UInt8 → UInt32) {fs : List Field}

include L in
theorem stamp_le : o + 4 ≤ n := L.tiled.end_le L.stamp_mem

section

variable (h : Follows L.tiles fs)

include h

/-- The fields stay clear of the checksum. -/
theorem stamp_disjoint : ∀ f ∈ fs, o + 4 ≤ f.1 ∨ f.1 + f.2.length ≤ o := h.disjoint L.tiled L.stamp_mem rfl

/-- Reading a field of a stamped record. -/
theorem slice_stamp {o' w : ℕ} {v : List UInt8} (hf : (o', v) ∈ fs) (hw : w = v.length) :
    slice ((render n fs).stamp checksum o).1 o' w = v := by
  have hfits := h.fits L.tiled
  have hn : o' + w ≤ n := by rw [hw]; exact hfits.le hf
  have hd : o' + w ≤ o ∨ o + 4 ≤ o' := by rw [hw]; exact (L.stamp_disjoint h _ hf).symm
  rw [Buf.slice_stamp_of_disjoint checksum _ hn hd, slice_render hfits hf hw]

/-- A reserved range of a stamped record is zero. -/
theorem allZero_stamp {t : Tile} (ht : t ∈ L.tiles) (hr : t.reserved = true) (hne : t ≠ Tile.gap o 4) :
    allZero (slice ((render n fs).stamp checksum o).1 t.offset t.length) = true := by
  have hn := L.tiled.end_le ht
  have hd : t.offset + t.length ≤ o ∨ o + 4 ≤ t.offset := L.tiled.disjoint ht L.stamp_mem hne
  rw [Buf.slice_stamp_of_disjoint checksum _ hn hd]
  exact allZero_render hn (h.disjoint L.tiled ht hr)

/-- The range of the checksum is zero before the record is stamped. -/
theorem allZero_render_stamp :
    allZero (slice (render n fs).1 o 4) = true := allZero_render L.stamp_le (L.stamp_disjoint h)

/-- Clearing the checksum of a stamped record gives the rendering of its fields. -/
theorem clear_stamp : ((render n fs).stamp checksum o).clear o 4 = render n fs :=
  Buf.clear_stamp checksum _ L.stamp_le (L.allZero_render_stamp h)

end

/-- **Canonicity of a stamped record**: a buffer that carries its checksum and whose other reserved
ranges are zero is the stamped rendering of its own fields. -/
theorem stamp_fieldsOf (b : Buf n) (hz : ∀ t ∈ L.tiles, t.reserved = true → t ≠ Tile.gap o 4 →
      allZero (slice b.1 t.offset t.length) = true)
    (hc : ofLe (slice b.1 o 4) = (checksum (b.clear o 4).1).toNat) :
    (render n (fieldsOf b L.tiles)).stamp checksum o = b := by
  have hn := L.stamp_le
  -- the other tiles do not meet the checksum, so clearing it leaves them alone
  have hsame : ∀ t ∈ L.tiles, t ≠ Tile.gap o 4 →
      slice (b.clear o 4).1 t.offset t.length = slice b.1 t.offset t.length := by
    intro t ht hne
    exact b.slice_clear_of_disjoint (L.tiled.end_le ht) (L.tiled.disjoint ht L.stamp_mem hne)
  have hfields : fieldsOf (b.clear o 4) L.tiles = fieldsOf b L.tiles := by
    refine map_congr_left fun t ht => ?_
    have ht := mem_filter.1 ht
    rw [hsame t ht.1 (by rintro rfl; simp [Tile.gap] at ht)]
  have hrender : render n (fieldsOf b L.tiles) = b.clear o 4 := by
    rw [← hfields]
    refine render_tiles _ L.tiled fun t ht hr => ?_
    by_cases hne : t = Tile.gap o 4
    · subst hne
      have hclear : slice (b.clear o 4).1 (Tile.gap o 4).offset (Tile.gap o 4).length =
          replicate 4 0 := b.slice_clear_self hn
      rw [hclear]
      exact allZero_replicate 4
    · rw [hsame t ht hne]
      exact hz t ht hr hne
  rw [hrender, Buf.stamp_clear checksum b hn hc]

end StampedLayout

end Bytes

namespace Rust

open Bytes List

/-! ### Fields that hold a word -/

/-- The field written by `put_u16`. -/
def u16Field (o : ℕ) (v : UInt16) : Field := (o, toLe 2 v.toNat)

/-- The field written by `put_u32`. -/
def u32Field (o : ℕ) (v : UInt32) : Field := (o, toLe 4 v.toNat)

/-- The field written by `put_u64`. -/
def u64Field (o : ℕ) (v : UInt64) : Field := (o, toLe 8 v.toNat)

section

variable {n o : ℕ} {ts : List Tile} {fs : List Field} (ht : Tiled n 0 ts) (h : Follows ts fs)

include ht h

/-- A range of a rendered record that holds a field. -/
theorem slice_render_of_mem {v : List UInt8} (hf : (o, v) ∈ fs) {w : ℕ} (hw : w = v.length) :
    slice (render n fs).1 o w = v := slice_render (h.fits ht) hf hw

end

/-! ### Reads of a record of known size -/

section

variable {n o : ℕ} {ε : Type} (b : Buf n)

theorem getU16_buf (h : o + 2 ≤ n) : (getU16 b.1 o : Outcome ε UInt16) = .ok (u16At b.1 o) :=
  getU16_of_le (by rw [b.2]; exact h)

theorem getU32_buf (h : o + 4 ≤ n) : (getU32 b.1 o : Outcome ε UInt32) = .ok (u32At b.1 o) :=
  getU32_of_le (by rw [b.2]; exact h)

theorem getU64_buf (h : o + 8 ≤ n) : (getU64 b.1 o : Outcome ε UInt64) = .ok (u64At b.1 o) :=
  getU64_of_le (by rw [b.2]; exact h)

theorem subslice_buf {w : ℕ} (h : o + w ≤ n) :
    (subslice b.1 o w : Outcome ε (List UInt8)) = .ok (slice b.1 o w) :=
  subslice_of_le (by rw [b.2]; exact h)

def arrayAt (o w : ℕ) (h : o + w ≤ n) : Buf w := ⟨slice b.1 o w, b.length_slice h⟩

theorem arrayAt_all (h : 0 + n ≤ n) : arrayAt b 0 n h = b := Subtype.ext (take_of_length_le b.2.le)

theorem subarray_buf {w : ℕ} (h : o + w ≤ n) :
    (subarray b.1 o w : Outcome ε (Buf w)) = .ok (arrayAt b o w h) :=
  subarray_of_le (by rw [b.2]; exact h)

theorem subslices_buf {rs : List (ℕ × ℕ)} (h : ∀ r ∈ rs, r.1 + r.2 ≤ n) :
    (subslices b.1 rs : Outcome ε (List UInt8)) = .ok (rs.flatMap fun r => slice b.1 r.1 r.2) :=
  subslices_of_le fun r hr => by rw [b.2]; exact h r hr

theorem index_buf {i : ℕ} (h : i < n) : (index b.1 i : Outcome ε UInt8) = .ok (b.byteAt i) :=
  index_of_lt (by rw [b.2]; exact h)

/-- Reads of a record in bounds: the rules together. -/
theorem reads_buf : (o + 2 ≤ n → (getU16 b.1 o : Outcome ε UInt16) = .ok (u16At b.1 o)) ∧
    (o + 4 ≤ n → (getU32 b.1 o : Outcome ε UInt32) = .ok (u32At b.1 o)) ∧
    (o + 8 ≤ n → (getU64 b.1 o : Outcome ε UInt64) = .ok (u64At b.1 o)) ∧
    (o < n → (index b.1 o : Outcome ε UInt8) = .ok (b.byteAt o)) ∧
    (∀ {w}, o + w ≤ n → (subslice b.1 o w : Outcome ε (List UInt8)) = .ok (slice b.1 o w)) ∧
    ∀ {w} (h : o + w ≤ n), (subarray b.1 o w : Outcome ε (Buf w)) = .ok (arrayAt b o w h) :=
  ⟨getU16_buf b, getU32_buf b, getU64_buf b, index_buf b, subslice_buf b, subarray_buf b⟩

end

/-! ### A record and what it holds -/

/-- The buffer holds the field. -/
def Holds {n : ℕ} (b : Buf n) (f : Field) : Prop := slice b.1 f.1 f.2.length = f.2

section

variable {n o : ℕ} {b : Buf n}

theorem holds_bytes {w : ℕ} {v : List UInt8} (h : v.length = w) : Holds b (o, v) ↔ slice b.1 o w = v := by
  rw [Holds, h]

theorem holds_byte {v : UInt8} (h : o < n) : Holds b (o, [v]) ↔ b.1.getD o 0 = v := by
  rw [holds_bytes rfl, length_singleton, b.slice_one h, cons.injEq]
  exact and_iff_left rfl

theorem holds_u16Field {v : UInt16} (h : o + 2 ≤ n) : Holds b (u16Field o v) ↔ u16At b.1 o = v := by
  rw [u16Field, holds_bytes (length_toLe _ _)]
  exact ⟨u16At_of_slice, fun heq => by rw [← heq, toLe_u16At (by rw [b.2]; exact h)]⟩

theorem holds_u32Field {v : UInt32} (h : o + 4 ≤ n) : Holds b (u32Field o v) ↔ u32At b.1 o = v := by
  rw [u32Field, holds_bytes (length_toLe _ _)]
  exact ⟨u32At_of_slice, fun heq => by rw [← heq, toLe_u32At (by rw [b.2]; exact h)]⟩

theorem holds_u64Field {v : UInt64} (h : o + 8 ≤ n) : Holds b (u64Field o v) ↔ u64At b.1 o = v := by
  rw [u64Field, holds_bytes (length_toLe _ _)]
  exact ⟨u64At_of_slice, fun heq => by rw [← heq, toLe_u64At (by rw [b.2]; exact h)]⟩

/-- Holding the fields of a list: the rules together. -/
theorem holds_fields : (∀ {o} {v : UInt16}, o + 2 ≤ n → (Holds b (u16Field o v) ↔ u16At b.1 o = v)) ∧
    (∀ {o} {v : UInt32}, o + 4 ≤ n → (Holds b (u32Field o v) ↔ u32At b.1 o = v)) ∧
    (∀ {o} {v : UInt64}, o + 8 ≤ n → (Holds b (u64Field o v) ↔ u64At b.1 o = v)) ∧
    (∀ {o} {v : UInt8}, o < n → (Holds b (o, [v]) ↔ b.1.getD o 0 = v)) ∧
    (∀ {f fs}, (∀ g ∈ f :: fs, Holds b g) ↔ Holds b f ∧ ∀ g ∈ fs, Holds b g) ∧
    ((∀ g ∈ [], Holds b g) ↔ True) :=
  ⟨holds_u16Field, holds_u32Field, holds_u64Field, holds_byte, forall_mem_cons, by simp⟩

/-- Being zero on the reserved ranges of a layout: the rules together. -/
theorem zero_tiles : (∀ {o w ts}, (∀ t ∈ Tile.field o w :: ts, t.reserved = true →
      allZero (slice b.1 t.offset t.length) = true) ↔
        ∀ t ∈ ts, t.reserved = true → allZero (slice b.1 t.offset t.length) = true) ∧
    (∀ {o w ts}, (∀ t ∈ Tile.gap o w :: ts, t.reserved = true →
      allZero (slice b.1 t.offset t.length) = true) ↔ allZero (slice b.1 o w) = true ∧
        ∀ t ∈ ts, t.reserved = true → allZero (slice b.1 t.offset t.length) = true) ∧
    ((∀ t ∈ ([] : List Tile), t.reserved = true → allZero (slice b.1 t.offset t.length) = true) ↔ True) := by
  simp [Tile.field, Tile.gap]

theorem u16At_eq_zero (h : o + 2 ≤ n) : u16At b.1 o = 0 ↔ allZero (slice b.1 o 2) = true := by
  rw [← holds_u16Field h, allZero_iff_replicate, b.length_slice h]
  rfl

theorem u32At_eq_zero (h : o + 4 ≤ n) : u32At b.1 o = 0 ↔ allZero (slice b.1 o 4) = true := by
  rw [← holds_u32Field h, allZero_iff_replicate, b.length_slice h]
  rfl

/-- The fields of a buffer that holds some fields are these fields. -/
theorem fieldsOf_of_holds {ts : List Tile} {fs : List Field} (h : Follows ts fs)
    (hholds : ∀ f ∈ fs, Holds b f) : fieldsOf b ts = fs := by
  have hmap : (fs.map fun f => (f.1, f.2.length)).map (fun r => (r.1, slice b.1 r.1 r.2)) = fs := by
    have hsame : ∀ f ∈ fs, (f.1, slice b.1 f.1 f.2.length) = id f := fun f hf =>
      Prod.ext rfl (hholds f hf)
    rw [map_map]
    exact (map_congr_left hsame).trans (map_id fs)
  rw [← hmap, h, map_map]
  rfl

/-- **A buffer is the rendering of some fields exactly when it holds them and is zero elsewhere.** -/
theorem eq_render_iff {ts : List Tile} {fs : List Field} (ht : Tiled n 0 ts) (h : Follows ts fs) :
    b = render n fs ↔ (∀ f ∈ fs, Holds b f) ∧
      ∀ t ∈ ts, t.reserved = true → allZero (slice b.1 t.offset t.length) = true := by
  constructor
  · rintro rfl
    refine ⟨fun f hf => slice_render_of_mem ht h hf rfl, fun t hmem hr => ?_⟩
    exact allZero_render (ht.end_le hmem) (h.disjoint ht hmem hr)
  · rintro ⟨hholds, hzero⟩
    rw [← fieldsOf_of_holds h hholds, render_tiles b ht hzero]

end

/-! ### Codes of enumerations -/

section

variable {α : Type} {code : α → UInt8} {value : UInt8}

/-- The value with a code, among given values. -/
def ofCode (code : α → UInt8) (values : List α) (value : UInt8) : Option α :=
  values.find? (code · = value)

theorem ofCode_eq_some {values : List α} {a : α} (hall : ∀ a, a ∈ values := by rintro ⟨⟩ <;> decide)
    (hcode : ∀ a b, code a = code b → a = b := by rintro ⟨⟩ ⟨⟩ <;> decide) :
    ofCode code values value = some a ↔ value = code a := by
  constructor
  · intro h
    have hfound := find?_some h
    exact (of_decide_eq_true hfound).symm
  · rintro rfl
    obtain ⟨b, hb⟩ := Option.isSome_iff_exists.1
      (find?_isSome.2 ⟨a, hall a, decide_eq_true rfl⟩ : (values.find? (code · = code a)).isSome = true)
    have hfound := find?_some hb
    rw [ofCode, hb, hcode b a (of_decide_eq_true hfound)]

/-- The byte of a value that can be missing. -/
def optionalRaw (raw : α → UInt8) : Option α → UInt8
  | none => 0
  | some a => raw a

def optionalFromRaw (fromRaw : UInt8 → Option α) (value : UInt8) : Option (Option α) :=
  if value = 0 then some none else (fromRaw value).map some

theorem optionalFromRaw_eq_some {fromRaw : UInt8 → Option α}
    (h : ∀ {v a}, fromRaw v = some a ↔ v = code a) {o : Option α}
    (hne : ∀ a, code a ≠ 0 := by rintro ⟨⟩ <;> decide) :
    optionalFromRaw fromRaw value = some o ↔ value = optionalRaw code o := by
  unfold optionalFromRaw
  cases o with
  | none =>
    split_ifs with hv
    · exact ⟨fun _ => hv, fun _ => rfl⟩
    · simp [optionalRaw, hv]
  | some a =>
    split_ifs with hv
    · simpa [optionalRaw, hv] using (hne a).symm
    · simp [optionalRaw, h]

end

/-! ### Decoders -/

section

variable {ε α : Type} {n : ℕ} {e : ε} {f : List UInt8 → Outcome ε α}

/-- A codec: what is made is read back, nothing but what is written is read, and no string of bytes
makes the decoder trap. -/
structure Canonical (encode : α → Outcome ε (List UInt8)) (decode : List UInt8 → Outcome ε α)
    (made : α → Prop) : Prop where
  decode_encode : ∀ x, made x → ∃ bytes, encode x = .ok bytes ∧ decode bytes = .ok x
  encode_decode : ∀ bytes x, decode bytes = .ok x → encode x = .ok bytes
  noTrap : ∀ bytes, NoTrap (decode bytes)

/-- A codec whose decoder accepts the image of what was made and nothing else. -/
theorem Canonical.of_decode {decode : List UInt8 → Outcome ε α} {made : α → Prop} {image : α → List UInt8}
    (h : ∀ {bytes x}, decode bytes = .ok x ↔ made x ∧ bytes = image x)
    (hnoTrap : ∀ bytes, NoTrap (decode bytes)) : Canonical (fun x => .ok (image x)) decode made :=
  ⟨fun _ hx => ⟨_, rfl, h.2 ⟨hx, rfl⟩⟩, fun _ _ hd => congrArg _ (h.1 hd).2.symm, hnoTrap⟩

/-- A decoder that looks at the length first is given by what it does with a buffer. -/
theorem sized_eq_ok (bytes : List UInt8) {x : α} {p : Prop} {image : List UInt8} (himage : image.length = n)
    (h : ∀ b : Buf n, f b.1 = .ok x ↔ p ∧ b.1 = image) :
    (rejectIf (bytes.length ≠ n) e >>= fun _ => f bytes) = .ok x ↔ p ∧ bytes = image := by
  by_cases hlength : bytes.length = n
  · rw [rejectIf_of_not (not_not.2 hlength)]
    exact h ⟨bytes, hlength⟩
  · constructor
    · intro hx
      obtain ⟨_, hx, -⟩ := bind_eq_ok.1 hx
      exact absurd (not_not.1 (rejectIf_eq_ok.1 hx)) hlength
    · rintro ⟨-, rfl⟩
      exact absurd himage hlength

theorem noTrap_sized (bytes : List UInt8) (h : ∀ b : Buf n, NoTrap (f b.1)) :
    NoTrap (rejectIf (bytes.length ≠ n) e >>= fun _ => f bytes) :=
  .rejectIf_bind fun hlength => h ⟨bytes, not_not.1 hlength⟩

end

end Rust
