/-
**Lists of records with a key, and worklists.**

A table kept as a list is read at the first record that carries a key and changed there.  When no
key occurs twice this is a finite map; the lemmas that need that say so.  A list that is sorted by its
keys can be searched in halves.

A worklist holds what has been found so far; a cursor moves over it and appends the successors that are
not in it yet.  When the cursor has reached the end, which it does within one more round than there are
elements that can be found at all, the list holds exactly what the starting list reaches.

* `lookup_adjust_self`, `lookup_adjust_ne` — reading after a change;
* `lookup_filter` — reading after dropping records by their key;
* `lookup_of_mem` — when keys do not repeat, every record is found under its key;
* `sum_adjust`, `sum_remove` — how a sum over the records changes;
* `Rust.binarySearchByKey_eq_some` — the search of a slice with strictly ascending keys;
* `Worklist.mem_explore` — with enough rounds, the loop finds exactly what is reachable.
-/

import Mathlib.Tactic

set_option autoImplicit false

namespace Keyed

open List Option

variable {β κ : Type} [DecidableEq κ] (key : β → κ)

/-- The first record with the key. -/
def lookup (k : κ) (l : List β) : Option β := l.find? fun x => key x = k

/-- The list with its first record of the key changed. -/
def adjust (k : κ) (f : β → β) (l : List β) : List β := l.modify (l.findIdx fun x => key x = k) f

variable {key} {k k' : κ} {f : β → β} {l : List β} {x : β}

/-! ### Reading -/

@[simp] theorem lookup_nil : lookup key k [] = none := rfl

theorem lookup_cons : lookup key k (x :: l) = if key x = k then some x else lookup key k l := by
  unfold lookup
  split <;> simp_all

theorem lookup_append (l l' : List β) :
    lookup key k (l ++ l') = (lookup key k l).or (lookup key k l') := find?_append

theorem mem_of_lookup (h : lookup key k l = some x) : x ∈ l := mem_of_find?_eq_some h

theorem key_of_lookup (h : lookup key k l = some x) : key x = k := by
  simpa using find?_some h

theorem lookup_eq_none : lookup key k l = none ↔ k ∉ l.map key := by
  simp [lookup]

theorem lookup_isSome : (lookup key k l).isSome ↔ k ∈ l.map key := by
  rw [← not_iff_not, Bool.not_eq_true, isSome_eq_false_iff, isNone_iff_eq_none, lookup_eq_none]

/-- When keys do not repeat, a record is found under its key. -/
theorem lookup_of_mem (hl : (l.map key).Nodup) (h : x ∈ l) : lookup key (key x) l = some x := by
  induction l with
  | nil => simp at h
  | cons y l ih =>
    rw [map_cons, nodup_cons] at hl
    rw [lookup_cons]
    rcases mem_cons.1 h with rfl | h
    · rw [if_pos rfl]
    · rw [if_neg, ih hl.2 h]
      intro hk
      exact hl.1 (hk ▸ mem_map_of_mem h)

theorem lookup_eq_some_iff (hl : (l.map key).Nodup) : lookup key k l = some x ↔ x ∈ l ∧ key x = k := by
  constructor
  · intro h
    exact ⟨mem_of_lookup h, key_of_lookup h⟩
  · rintro ⟨hx, rfl⟩
    exact lookup_of_mem hl hx

/-- Dropping records by their key drops whole keys. -/
theorem lookup_filter (p : κ → Bool) :
    lookup key k (l.filter fun x => p (key x)) = if p k then lookup key k l else none := by
  induction l with
  | nil => simp
  | cons x l ih =>
    by_cases hx : key x = k
    · subst hx
      by_cases hp : p (key x) <;> simp [hp, lookup_cons, ih]
    · by_cases hp : p (key x) <;> simp [hp, hx, lookup_cons, ih]

/-! ### Changing -/

theorem adjust_cons : adjust key k f (x :: l) = if key x = k then f x :: l else x :: adjust key k f l := by
  unfold adjust
  rw [findIdx_cons]
  by_cases h : key x = k
  · simp [h]
  · simp [h]

/-- With distinct keys, the change is made to every record with the key. -/
theorem adjust_eq_map (hl : (l.map key).Nodup) :
    adjust key k f l = l.map fun x => if key x = k then f x else x := by
  induction l with
  | nil => rfl
  | cons x l ih =>
    rw [map_cons, nodup_cons] at hl
    rw [adjust_cons, map_cons]
    by_cases hx : key x = k
    · have hrest : ∀ y ∈ l, (if key y = k then f y else y) = id y := by
        intro y hy
        exact if_neg fun hk => hl.1 (mem_map.2 ⟨y, hy, hk.trans hx.symm⟩)
      rw [if_pos hx, if_pos hx, map_congr_left hrest, List.map_id]
    · rw [if_neg hx, if_neg hx, ih hl.2]

/-- A change that no record shows in what it is mapped to. -/
theorem map_adjust {γ : Type} {g : β → γ} (hf : ∀ x, g (f x) = g x) : (adjust key k f l).map g = l.map g := by
  induction l with
  | nil => rfl
  | cons x l ih =>
    rw [adjust_cons]
    split <;> simp [hf, ih]

theorem map_key_adjust (hf : ∀ x, key (f x) = key x) : (adjust key k f l).map key = l.map key := map_adjust hf

/-- A changed list has the old records and at most one changed one. -/
theorem mem_adjust (h : x ∈ adjust key k f l) : x ∈ l ∨ ∃ y, lookup key k l = some y ∧ x = f y := by
  induction l with
  | nil => exact .inl h
  | cons y l ih =>
    rw [adjust_cons] at h
    rw [lookup_cons]
    split at h
    · next hy =>
        rw [if_pos hy]
        rcases mem_cons.1 h with rfl | h
        · exact .inr ⟨y, rfl, rfl⟩
        · exact .inl (mem_cons_of_mem _ h)
    · next hy =>
        rw [if_neg hy]
        rcases mem_cons.1 h with rfl | h
        · exact .inl mem_cons_self
        · exact (ih h).imp_left (mem_cons_of_mem _)

/-- When keys do not repeat, the records of other keys stay and one record is changed. -/
theorem mem_adjust_iff {y : β} (hl : (l.map key).Nodup) (h : lookup key k l = some y) :
    x ∈ adjust key k f l ↔ x = f y ∨ key x ≠ k ∧ x ∈ l := by
  induction l with
  | nil => simp at h
  | cons z l ih =>
    rw [map_cons, nodup_cons] at hl
    rw [lookup_cons] at h
    rw [adjust_cons]
    split at h
    · next hz =>
        cases h
        rw [if_pos hz, mem_cons, mem_cons]
        have hother : x ∈ l → key x ≠ k := fun hx hk =>
          hl.1 (hz.trans hk.symm ▸ mem_map_of_mem hx)
        constructor
        · rintro (hx | hx)
          · exact .inl hx
          · exact .inr ⟨hother hx, .inr hx⟩
        · rintro (hx | ⟨hne, rfl | hx⟩)
          · exact .inl hx
          · exact absurd hz hne
          · exact .inr hx
    · next hz =>
        rw [if_neg hz, mem_cons, mem_cons, ih hl.2 h]
        constructor
        · rintro (rfl | hx | ⟨hne, hx⟩)
          · exact .inr ⟨hz, .inl rfl⟩
          · exact .inl hx
          · exact .inr ⟨hne, .inr hx⟩
        · rintro (hx | ⟨hne, rfl | hx⟩)
          · exact .inr (.inl hx)
          · exact .inl rfl
          · exact .inr (.inr ⟨hne, hx⟩)

section

variable (hf : ∀ x, key (f x) = key x)

include hf

theorem lookup_adjust_self : lookup key k (adjust key k f l) = (lookup key k l).map f := by
  induction l with
  | nil => rfl
  | cons x l ih =>
    rw [adjust_cons, lookup_cons]
    split
    · next h => rw [lookup_cons, if_pos ((hf x).trans h), map_some]
    · next h => rw [lookup_cons, if_neg h, ih]

theorem lookup_adjust_ne (h : k' ≠ k) : lookup key k' (adjust key k f l) = lookup key k' l := by
  induction l with
  | nil => rfl
  | cons x l ih =>
    rw [adjust_cons]
    split
    · next hx =>
        have hk : ¬ key x = k' := fun hk => h (hk.symm.trans hx)
        rw [lookup_cons, lookup_cons, hf, if_neg hk, if_neg hk]
    · rw [lookup_cons, lookup_cons, ih]

/-- Two changes of one record are one. -/
theorem adjust_adjust {g : β → β} : adjust key k g (adjust key k f l) = adjust key k (g ∘ f) l := by
  induction l with
  | nil => rfl
  | cons x l ih =>
    rw [adjust_cons, adjust_cons]
    by_cases hx : key x = k
    · rw [if_pos hx, if_pos hx, adjust_cons, if_pos ((hf x).trans hx)]
      rfl
    · rw [if_neg hx, if_neg hx, adjust_cons, if_neg hx, ih]

end

/-- A change that cannot be seen in what the records are mapped to. -/
theorem map_adjust_of_lookup {γ : Type} {g : β → γ} (h : lookup key k l = some x)
    (hx : g (f x) = g x) : (adjust key k f l).map g = l.map g := by
  induction l with
  | nil => rfl
  | cons y l ih =>
    rw [lookup_cons] at h
    rw [adjust_cons]
    split at h
    · next hy =>
        cases h
        rw [if_pos hy, map_cons, map_cons, hx]
    · next hy => rw [if_neg hy, map_cons, map_cons, ih h]

theorem adjust_of_fixed (h : lookup key k l = some x) (hx : f x = x) : adjust key k f l = l := by
  have hmap := map_adjust_of_lookup (g := id) h hx
  rwa [List.map_id, List.map_id] at hmap

/-- Changing the record of an absent key changes nothing. -/
theorem adjust_of_lookup_none (h : lookup key k l = none) : adjust key k f l = l := by
  induction l with
  | nil => rfl
  | cons x l ih =>
    rw [lookup_cons] at h
    split at h
    · simp at h
    · next hx => rw [adjust_cons, if_neg hx, ih h]

/-- A change of all records that keeps their keys. -/
theorem lookup_map (hf : ∀ x, key (f x) = key x) : lookup key k (l.map f) = (lookup key k l).map f := by
  induction l with
  | nil => rfl
  | cons x l ih =>
    rw [map_cons, lookup_cons, lookup_cons, hf]
    split
    · rfl
    · exact ih

/-! ### Dropping one record -/

/-- When keys do not repeat, dropping the first record of a key drops all of them. -/
theorem eraseP_eq_filter (hl : (l.map key).Nodup) :
    (l.eraseP fun x => key x = k) = l.filter fun x => key x ≠ k := by
  induction l with
  | nil => rfl
  | cons x l ih =>
    rw [map_cons, nodup_cons] at hl
    by_cases hx : key x = k
    · have hall : ∀ y ∈ l, key y ≠ k := fun y hy hk =>
        hl.1 (hx.trans hk.symm ▸ mem_map_of_mem hy)
      have hfilter : (l.filter fun x => key x ≠ k) = l := filter_eq_self.2 (by simpa using hall)
      simpa [hx] using hfilter.symm
    · simpa [hx] using ih hl.2

/-- Removes the element at the index and puts the last one in its place. -/
def swapRemove (l : List β) (i : ℕ) : List β :=
  match l.getLast? with
  | some last => (l.set i last).dropLast
  | none => []

theorem swapRemove_perm {i : ℕ} (h : i < l.length) : (swapRemove l i).Perm (l.eraseIdx i) := by
  unfold swapRemove
  rcases eq_nil_or_concat l with rfl | ⟨init, last, rfl⟩
  · simp at h
  · rw [concat_eq_append] at h ⊢
    rw [getLast?_append]
    rw [length_append, length_singleton] at h
    change (((init ++ [last]).set i last).dropLast).Perm _
    rcases Nat.lt_succ_iff_lt_or_eq.1 h with hlt | rfl
    · rw [set_append_left _ _ hlt, dropLast_concat, eraseIdx_append_of_lt_length hlt,
        set_eq_take_append_cons_drop, if_pos hlt, eraseIdx_eq_take_drop_succ, append_assoc]
      exact .append_left _ (perm_append_singleton _ _).symm
    · rw [set_append_right _ _ le_rfl, Nat.sub_self, set_cons_zero, dropLast_concat,
        eraseIdx_append_of_length_le le_rfl, Nat.sub_self, eraseIdx_cons_zero, append_nil]

variable (key) in
/-- The list without its first record of the key; the last record takes its place. -/
def remove (k : κ) (l : List β) : List β :=
  match l.findIdx? fun x => key x = k with
  | some i => swapRemove l i
  | none => l

theorem remove_perm : (remove key k l).Perm (l.eraseP fun x => key x = k) := by
  unfold remove
  rw [eraseP_eq_eraseIdx]
  split
  · next i hi =>
      rw [hi]
      exact swapRemove_perm (findIdx?_eq_some_iff_findIdx_eq.1 hi).1
  · next hi => rw [hi]

theorem mem_of_mem_remove (h : x ∈ remove key k l) : x ∈ l := mem_of_mem_eraseP (remove_perm.mem_iff.1 h)

theorem nodup_map_remove {γ : Type} {g : β → γ} (hl : (l.map g).Nodup) : ((remove key k l).map g).Nodup :=
  (remove_perm.map g).nodup_iff.2 (hl.sublist (eraseP_sublist.map g))

theorem nodup_map_concat {γ : Type} {g : β → γ} (hl : (l.map g).Nodup) (hx : g x ∉ l.map g) :
    ((l ++ [x]).map g).Nodup := by
  rw [map_append, map_singleton, ← concat_eq_append]
  exact .concat hx hl

theorem length_remove_le : (remove key k l).length ≤ l.length := by
  rw [remove_perm.length_eq]
  exact eraseP_sublist.length_le

/-- When keys do not repeat, exactly the records of other keys stay. -/
theorem mem_remove (hl : (l.map key).Nodup) : x ∈ remove key k l ↔ x ∈ l ∧ key x ≠ k := by
  rw [remove_perm.mem_iff, eraseP_eq_filter hl, mem_filter, decide_eq_true_iff]

theorem lookup_remove (hl : (l.map key).Nodup) :
    lookup key k' (remove key k l) = if k' = k then none else lookup key k' l := by
  have hl' : ((remove key k l).map key).Nodup := nodup_map_remove hl
  split
  · next h =>
      subst h
      rw [lookup_eq_none, List.mem_map]
      rintro ⟨x, hx, hk⟩
      exact ((mem_remove hl).1 hx).2 hk
  · next h =>
      refine ext fun x => ?_
      rw [lookup_eq_some_iff hl', lookup_eq_some_iff hl, mem_remove hl]
      constructor
      · rintro ⟨⟨hx, -⟩, hk⟩
        exact ⟨hx, hk⟩
      · rintro ⟨hx, hk⟩
        exact ⟨⟨hx, fun hk' => h (hk.symm.trans hk')⟩, hk⟩

/-! ### Sums over the records -/

section

variable {M : Type} [AddCommMonoid M] {g : β → M}

theorem sum_adjust (h : lookup key k l = some x) :
    ((adjust key k f l).map g).sum + g x = (l.map g).sum + g (f x) := by
  induction l with
  | nil => simp at h
  | cons y l ih =>
    rw [lookup_cons] at h
    rw [adjust_cons]
    split at h
    · next hy =>
        cases h
        rw [if_pos hy, map_cons, map_cons, sum_cons, sum_cons]
        abel
    · next hy =>
        rw [if_neg hy, map_cons, map_cons, sum_cons, sum_cons, add_assoc, add_assoc, ih h]

theorem sum_remove (h : lookup key k l = some x) : ((remove key k l).map g).sum + g x = (l.map g).sum := by
  rw [(remove_perm.map g).sum_eq]
  induction l with
  | nil => simp at h
  | cons y l ih =>
    rw [lookup_cons] at h
    rw [eraseP_cons]
    split at h
    · next hy =>
        cases h
        simp [hy, add_comm]
    · next hy =>
        simp only [hy, decide_false, cond_false, map_cons, sum_cons]
        rw [add_assoc, ih h]

end

end Keyed

namespace Rust

open List Option

variable {α : Type} (xs : List α) (key : α → ℕ) (k : ℕ)

/-- The loop of the search: the candidates are the `size` elements from `base` on. -/
def searchBase : ℕ → ℕ → ℕ → ℕ
  | 0, base, _ => base
  | fuel + 1, base, size =>
    if 1 < size then
      let half := size / 2
      let mid := base + half
      let base := if xs[mid]?.any (fun x => k < key x) then base else mid
      searchBase fuel base (size - half)
    else base

/-- The position of an element with the key, if the search finds one. -/
def binarySearchByKey : Option ℕ :=
  if xs.length = 0 then none
  else
    let base := searchBase xs key k xs.length 0 xs.length
    if xs[base]?.any (fun x => key x = k) then some base else none

variable {xs key k} (hs : xs.Pairwise fun x y => key x < key y)

include hs

/-- An element with the key stays among the candidates. -/
theorem searchBase_eq {j : ℕ} (hj : j < xs.length) (hk : key xs[j] = k) {fuel base size : ℕ}
    (hfuel : size ≤ fuel + 1) (hbase : base ≤ j) (hsize : j < base + size)
    (hend : base + size ≤ xs.length) : searchBase xs key k fuel base size = j := by
  induction fuel generalizing base size with
  | zero =>
    rw [searchBase]
    omega
  | succ fuel ih =>
    rw [searchBase]
    split
    case isFalse => omega
    case isTrue hlt =>
      have hmid : base + size / 2 < xs.length := by omega
      rw [pairwise_iff_getElem] at hs
      simp only [getElem?_eq_getElem hmid, any_some, decide_eq_true_eq]
      split
      case isTrue hgt =>
        -- the middle element is too large, and so is everything behind it
        have hjm : j < base + size / 2 := by
          by_contra hcon
          rcases Nat.lt_or_ge (base + size / 2) j with h | h
          · have := hs _ _ hmid hj h
            omega
          · have hjeq : j = base + size / 2 := by omega
            subst hjeq
            omega
        exact ih (by omega) hbase (by omega) (by omega)
      case isFalse hle =>
        have hjm : base + size / 2 ≤ j := by
          by_contra hcon
          have := hs _ _ hj hmid (by omega)
          omega
        exact ih (by omega) hjm (by omega) (by omega)

/-- **The search of a slice with strictly ascending keys.** -/
theorem binarySearchByKey_eq_some {i : ℕ} :
    binarySearchByKey xs key k = some i ↔ ∃ h : i < xs.length, key xs[i] = k := by
  unfold binarySearchByKey
  constructor
  · intro h
    split at h
    case isTrue => cases h
    case isFalse =>
      simp only [ite_none_right_eq_some, some.injEq] at h
      obtain ⟨hany, rfl⟩ := h
      obtain ⟨x, hx, hk⟩ := (any_eq_true _ _).1 hany
      obtain ⟨hlt, hxs⟩ := List.getElem?_eq_some_iff.1 hx
      rw [← hxs, decide_eq_true_eq] at hk
      exact ⟨hlt, hk⟩
  · rintro ⟨hi, hk⟩
    have hbase : searchBase xs key k xs.length 0 xs.length = i :=
      searchBase_eq hs hi hk (by omega) (by omega) (by omega) (by omega)
    rw [if_neg (by omega), hbase]
    simp [getElem?_eq_getElem hi, hk]

/-- The element the search finds. -/
theorem bind_binarySearchByKey {x : α} :
    ((binarySearchByKey xs key k).bind fun i => xs[i]?) = some x ↔ x ∈ xs ∧ key x = k := by
  rw [bind_eq_some_iff]
  constructor
  · rintro ⟨i, hi, hx⟩
    obtain ⟨hlt, hk⟩ := (binarySearchByKey_eq_some hs).1 hi
    rw [getElem?_eq_getElem hlt, some.injEq] at hx
    subst hx
    exact ⟨getElem_mem hlt, hk⟩
  · rintro ⟨hx, hk⟩
    obtain ⟨i, hi, rfl⟩ := getElem_of_mem hx
    exact ⟨i, (binarySearchByKey_eq_some hs).2 ⟨hi, hk⟩, getElem?_eq_getElem hi⟩

end Rust

namespace Worklist

open List

variable {α : Type} [DecidableEq α] (seen : List α)

/-- Appends an element that is not in the list yet. -/
def pushUnique (a : α) : List α := if a ∈ seen then seen else seen ++ [a]

/-- The cursor visits the list from left to right; the successors of what it visits are appended. -/
def explore (links : α → List α) : ℕ → List α → ℕ → List α
  | 0, seen, _ => seen
  | rounds + 1, seen, cursor =>
    match seen[cursor]? with
    | none => seen
    | some a => explore links rounds ((links a).foldl pushUnique seen) (cursor + 1)

/-! ### Appending what is new -/

theorem prefix_pushUnique (a : α) : seen <+: pushUnique seen a := by
  unfold pushUnique
  split
  · exact prefix_refl seen
  · exact prefix_append seen [a]

variable {a : α} {seen}

theorem mem_pushUnique {b : α} : b ∈ pushUnique seen a ↔ b ∈ seen ∨ b = a := by
  unfold pushUnique
  split
  · next h => exact ⟨.inl, fun hb => hb.elim id fun hb => hb ▸ h⟩
  · simp

theorem nodup_pushUnique (h : seen.Nodup) (a : α) : (pushUnique seen a).Nodup := by
  unfold pushUnique
  split
  · exact h
  · next ha => exact h.append (nodup_singleton a) (by simpa using ha)

theorem prefix_foldl (as seen : List α) : seen <+: as.foldl pushUnique seen := by
  induction as generalizing seen with
  | nil => exact prefix_refl seen
  | cons a as ih => exact (prefix_pushUnique seen a).trans (ih _)

theorem mem_foldl {as : List α} {b : α} : b ∈ as.foldl pushUnique seen ↔ b ∈ seen ∨ b ∈ as := by
  induction as generalizing seen with
  | nil => simp
  | cons a as ih => rw [foldl_cons, ih, mem_pushUnique, mem_cons, or_assoc]

theorem nodup_foldl {as : List α} (h : seen.Nodup) : (as.foldl pushUnique seen).Nodup := by
  induction as generalizing seen with
  | nil => exact h
  | cons a as ih => exact ih (nodup_pushUnique h a)

/-! ### The loop -/

variable {links : α → List α} {start all : List α}

/-- What holds whenever the cursor moves: the list does not repeat an element, holds the starting
elements, holds only what is reachable, and is closed up to the cursor. -/
structure Inv (links : α → List α) (start seen : List α) (cursor : ℕ) : Prop where
  nodup : seen.Nodup
  start_sub : ∀ a ∈ start, a ∈ seen
  sound : ∀ a ∈ seen, ∃ s ∈ start, Relation.ReflTransGen (fun x y => y ∈ links x) s a
  closed : ∀ a ∈ seen.take cursor, ∀ b ∈ links a, b ∈ seen

theorem inv_start : Inv links start (start.foldl pushUnique []) 0 where
  nodup := nodup_foldl nodup_nil
  start_sub a h := mem_foldl.2 (.inr h)
  sound a h := ⟨a, (mem_foldl.1 h).resolve_left (by simp), .refl⟩
  closed a h := by simp at h

/-- Visiting one element keeps the invariant. -/
theorem Inv.step {cursor : ℕ} (h : Inv links start seen cursor) (ha : seen[cursor]? = some a) :
    Inv links start ((links a).foldl pushUnique seen) (cursor + 1) where
  nodup := nodup_foldl h.nodup
  start_sub b hb := mem_foldl.2 (.inl (h.start_sub b hb))
  sound b hb := by
    rcases mem_foldl.1 hb with hb | hb
    · exact h.sound b hb
    · obtain ⟨s, hs, hreach⟩ := h.sound a (mem_of_getElem? ha)
      exact ⟨s, hs, hreach.tail hb⟩
  closed b hb c hc := by
    -- the first `cursor + 1` elements are those visited before, and `a`
    have hlt : cursor < seen.length := (List.getElem?_eq_some_iff.1 ha).1
    obtain ⟨rest, hrest⟩ := prefix_foldl (links a) seen
    rw [← hrest, take_append_of_le_length hlt, take_add_one, ha] at hb
    rcases mem_append.1 hb with hb | hb
    · exact mem_foldl.2 (.inl (h.closed b hb c hc))
    · obtain rfl : b = a := by simpa using hb
      exact mem_foldl.2 (.inr hc)

omit [DecidableEq α] in
/-- When the cursor is at the end, the list is what is reachable. -/
theorem Inv.mem_iff {cursor : ℕ} (h : Inv links start seen cursor) (hend : seen.length ≤ cursor) :
    a ∈ seen ↔ ∃ s ∈ start, Relation.ReflTransGen (fun x y => y ∈ links x) s a := by
  refine ⟨h.sound a, ?_⟩
  rintro ⟨s, hs, hreach⟩
  have hclosed : ∀ a ∈ seen, ∀ b ∈ links a, b ∈ seen := by
    intro a ha b hb
    exact h.closed a (by rwa [List.take_of_length_le hend]) b hb
  induction hreach with
  | refl => exact h.start_sub s hs
  | tail _ hb ih => exact hclosed _ ih _ hb

/-- A loop with more rounds than unvisited elements reaches the end. -/
theorem mem_explore_of_inv (huniv : ∀ a b, b ∈ links a → b ∈ all) :
    ∀ (rounds : ℕ) {seen : List α} {cursor : ℕ}, Inv links start seen cursor →
      (∀ b ∈ seen, b ∈ all) → all.length < rounds + cursor → (a ∈ explore links rounds seen cursor ↔
        ∃ s ∈ start, Relation.ReflTransGen (fun x y => y ∈ links x) s a) := by
  intro rounds
  induction rounds with
  | zero =>
    intro seen cursor h hseen hlt
    have hlen : seen.length ≤ all.length := (h.nodup.subperm hseen).length_le
    exact h.mem_iff (by omega)
  | succ rounds ih =>
    intro seen cursor h hseen hlt
    unfold explore
    cases hc : seen[cursor]? with
    | none => exact h.mem_iff (by simpa using hc)
    | some b =>
      refine ih (h.step hc) ?_ (by omega)
      intro c hmem
      rcases mem_foldl.1 hmem with hmem | hmem
      · exact hseen c hmem
      · exact huniv b c hmem

/-- With one round for every element that can be found, and one more, the loop finds exactly what
the starting elements reach. -/
theorem mem_explore (hstart : ∀ a ∈ start, a ∈ all) (huniv : ∀ a b, b ∈ links a → b ∈ all) :
    a ∈ explore links (all.length + 1) (start.foldl pushUnique []) 0 ↔
      ∃ s ∈ start, Relation.ReflTransGen (fun x y => y ∈ links x) s a := by
  refine mem_explore_of_inv huniv _ inv_start ?_ (by omega)
  intro b hb
  exact hstart b ((mem_foldl.1 hb).resolve_left (by simp))

end Worklist
