/-
**Sums over the subtrees of a forest.**

A forest is given by the parent of each node.  Every node carries a weight, and the total of a node is
the sum of the weights of the nodes under it, itself included.  The lemmas say how totals change with
the weights and with the links.

* `total_add`, `total_single` — totals are additive, and one weight counts for the nodes
  above it;
* `total_attach` — a new leaf without weight changes no total;
* `total_cut` — cutting off a subtree without weight changes no other total.
-/

import Mathlib.Algebra.BigOperators.Group.List.Lemmas
import Mathlib.Algebra.Order.Monoid.Canonical.Defs
import Mathlib.Logic.Relation
import Mathlib.Tactic

set_option autoImplicit false

namespace Forest

variable {α : Type}

/-- The second node is in the subtree of the first: its chain of parents leads there. -/
def Under (up : α → Option α) (j x : α) : Prop :=
  Relation.ReflTransGen (fun a b => up a = some b) x j

variable {up up' : α → Option α} {a c j p r x : α}

theorem Under.refl (x : α) : Under up x x := Relation.ReflTransGen.refl

theorem Under.trans (h1 : Under up j x) (h2 : Under up r j) : Under up r x :=
  Relation.ReflTransGen.trans h1 h2

theorem Under.of_up (h : up x = some p) (hp : Under up j p) : Under up j x := .head h hp

theorem under_iff : Under up j x ↔ j = x ∨ ∃ p, up x = some p ∧ Under up j p := by
  constructor
  · intro h
    rcases h.cases_head with rfl | ⟨p, hp, h⟩
    · exact .inl rfl
    · exact .inr ⟨p, hp, h⟩
  · rintro (rfl | ⟨p, hp, h⟩)
    · exact .refl j
    · exact .of_up hp h

/-- The nodes under a given one are the node and the nodes under its children. -/
theorem under_iff_child : Under up j x ↔ x = j ∨ ∃ c, up c = some j ∧ Under up c x := by
  constructor
  · intro h
    rcases h.cases_tail with rfl | ⟨c, hc, hup⟩
    · exact .inl rfl
    · exact .inr ⟨c, hup, hc⟩
  · rintro (rfl | ⟨c, hup, hc⟩)
    · exact .refl x
    · exact hc.tail hup

/-- Parents come earlier, so a node above another one comes no later. -/
theorem Under.rank_le {rank : α → ℕ} (hrank : ∀ a b, up a = some b → rank b < rank a)
    (h : Under up j x) : rank j ≤ rank x := by
  induction h with
  | refl => exact le_rfl
  | tail _ hb ih => exact (hrank _ _ hb).le.trans ih

/-- The parent of a node is not under it. -/
theorem not_under_of_up {rank : α → ℕ} (hrank : ∀ a b, up a = some b → rank b < rank a)
    (h : up x = some p) : ¬ Under up x p := fun hx =>
  absurd (hx.rank_le hrank) (Nat.not_le.2 (hrank _ _ h))

/-- Of two nodes above a third one, one is above the other. -/
theorem under_total (ha : Under up a x) (hc : Under up c x) : Under up c a ∨ Under up a c := by
  have hunique : Relator.RightUnique fun a b => up a = some b := fun a b c hb hc =>
    Option.some.inj (hb.symm.trans hc)
  exact Relation.ReflTransGen.total_of_right_unique hunique ha hc

/-- The subtrees of two children of one node are disjoint. -/
theorem eq_of_under_siblings {rank : α → ℕ} (hrank : ∀ a b, up a = some b → rank b < rank a)
    (ha : up a = some p) (hc : up c = some p) (hax : Under up a x) (hcx : Under up c x) : a = c := by
  rcases under_total hax hcx with h | h
  · rcases under_iff.1 h with rfl | ⟨q, hq, hcq⟩
    · rfl
    · rw [ha] at hq
      cases hq
      exact absurd hcq (not_under_of_up hrank hc)
  · rcases under_iff.1 h with rfl | ⟨q, hq, haq⟩
    · rfl
    · rw [hc] at hq
      cases hq
      exact absurd haq (not_under_of_up hrank ha)

/-- A closed set of nodes on which the links agree has the same subtrees. -/
theorem under_congr {S : α → Prop} (hclosed : ∀ a b, S a → up a = some b → S b)
    (hsame : ∀ a, S a → up' a = up a) (hx : S x) : Under up' j x ↔ Under up j x := by
  constructor
  · intro h
    have hall : ∀ y, Relation.ReflTransGen (fun a b => up' a = some b) x y → S y ∧ Under up y x := by
      intro y hy
      induction hy with
      | refl => exact ⟨hx, .refl x⟩
      | tail _ hb ih =>
        have hup := (hsame _ ih.1).symm.trans hb
        exact ⟨hclosed _ _ ih.1 hup, ih.2.trans (.of_up hup (.refl _))⟩
    exact (hall j h).2
  · intro h
    have hall : ∀ y, Under up y x → S y ∧ Under up' y x := by
      intro y hy
      induction hy with
      | refl => exact ⟨hx, .refl x⟩
      | tail _ hb ih =>
        have hup := (hsame _ ih.1).trans hb
        exact ⟨hclosed _ _ ih.1 hb, ih.2.trans (.of_up hup (.refl _))⟩
    exact (hall j h).2

/-! ### Totals -/

section

open Classical List

variable {M : Type} [AddCommMonoid M] {nodes : List α} {w w' : α → M} {u : M}

/-- The sum of the weights of the nodes under the given one. -/
noncomputable def total (nodes : List α) (up : α → Option α) (w : α → M) (j : α) : M :=
  (nodes.map fun x => if Under up j x then w x else 0).sum

theorem total_add (w w' : α → M) (j : α) :
    total nodes up (w + w') j = total nodes up w j + total nodes up w' j := by
  unfold total
  rw [← sum_map_add]
  congr 1
  refine map_congr_left fun x _ => ?_
  split <;> simp

theorem total_eq_zero (h : ∀ x ∈ nodes, Under up j x → w x = 0) : total nodes up w j = 0 := by
  refine sum_eq_zero fun y hy => ?_
  obtain ⟨x, hx, rfl⟩ := mem_map.1 hy
  split
  · exact h x hx ‹_›
  · rfl

/-- The weight of one node counts for the nodes above it. -/
theorem total_single [DecidableEq α] (hnodup : nodes.Nodup) (ha : a ∈ nodes) (u : M) (j : α) :
    total nodes up (Pi.single a u) j = if Under up j a then u else 0 := by
  unfold total
  induction nodes with
  | nil => simp at ha
  | cons x nodes ih =>
    rw [nodup_cons] at hnodup
    rw [map_cons, sum_cons]
    rcases mem_cons.1 ha with rfl | ha
    · have hrest : (nodes.map fun x => if Under up j x then (Pi.single a u : α → M) x else 0).sum
          = 0 := by
        refine sum_eq_zero fun y hy => ?_
        obtain ⟨z, hz, rfl⟩ := mem_map.1 hy
        have hza : z ≠ a := fun h => hnodup.1 (h ▸ hz)
        simp [hza]
      rw [hrest, Pi.single_eq_same, add_zero]
    · have hxa : x ≠ a := fun h => hnodup.1 (h ▸ ha)
      rw [ih hnodup.2 ha, Pi.single_eq_of_ne hxa, ite_self, zero_add]

/-- Attaching a new leaf that has no weight. -/
theorem total_attach (hclosed : ∀ a b, a ∈ nodes → up a = some b → b ∈ nodes)
    (hsame : ∀ a ∈ nodes, up' a = up a) (hw : w c = 0) (j : α) :
    total (nodes ++ [c]) up' w j = total nodes up w j := by
  unfold total
  rw [map_append, sum_append, map_singleton, sum_singleton, hw, ite_self, add_zero]
  congr 1
  refine map_congr_left fun x hx => ?_
  rw [under_congr hclosed hsame hx]

/-- Cutting off a subtree that has no weight. -/
theorem total_cut (hsame : ∀ a, ¬ Under up r a → up' a = up a)
    (hw : ∀ a, Under up r a → w a = 0) (j : α) : total nodes up' w j = total nodes up w j := by
  unfold total
  congr 1
  refine map_congr_left fun x _ => ?_
  by_cases hx : Under up r x
  · rw [hw x hx, ite_self, ite_self]
  · have hiff : Under up' j x ↔ Under up j x :=
      under_congr
        (fun a b ha hb hr => ha (.of_up hb hr)) hsame hx
    rw [hiff]

/-- What is in one subtree counts once for each node above it. -/
theorem total_within (hj : Under up j r) :
    total nodes up (fun x => if Under up r x then w x else 0) j = total nodes up w r := by
  unfold total
  congr 1
  refine map_congr_left fun x _ => ?_
  dsimp only
  by_cases hx : Under up r x
  · rw [if_pos (hx.trans hj)]
  · rw [if_neg hx, ite_self]

/-- What is in one subtree does not count for the nodes beside it. -/
theorem total_within_apart (hj : ¬ Under up j r) (hr : ¬ Under up r j) :
    total nodes up (fun x => if Under up r x then w x else 0) j = 0 := by
  refine total_eq_zero fun x _ hx => if_neg fun hrx => ?_
  rcases under_total hx hrx with h | h
  · exact hr h
  · exact hj h

end

end Forest
