import Mathlib.Algebra.Order.Field.Basic
import Mathlib.Algebra.Order.Group.Abs
import Mathlib.Tactic.Linarith
import Mathlib.Tactic.Ring

/-!
# Gain reduction

One-pole smoothing, the peak of a window, and the gain that brings a peak down to a ceiling.
-/

namespace GainReduction

variable {K : Type} [Field K] [LinearOrder K]

/-- The coefficient of a one-pole filter. -/
structure Alpha (K : Type) [Field K] [LinearOrder K] where
  value : K
  pos : 0 < value
  le_one : value ≤ 1

/-- One step from `x` toward `t`. -/
def toward (a : Alpha K) (x t : K) : K := x + a.value * (t - x)

def peak (window : List K) : K := (window.map abs).foldl max 0

/-- The gain that brings `predicted` down to the ceiling. -/
def required (ceiling predicted : K) : K := if ceiling < predicted then ceiling / predicted else 1

theorem toward_eq (a : Alpha K) (x t : K) : toward a x t = (1 - a.value) * x + a.value * t := by
  unfold toward
  ring

/-! ## The peak of a window -/

section Fold

variable {L : Type} [LinearOrder L]

theorem le_foldl_max (l : List L) (b : L) : b ≤ l.foldl max b ∧ ∀ v ∈ l, v ≤ l.foldl max b := by
  induction l generalizing b with
  | nil =>
    refine ⟨le_refl b, ?_⟩
    rintro v ⟨⟩
  | cons x l ih =>
    obtain ⟨hstart, hall⟩ := ih (max b x)
    refine ⟨(le_max_left b x).trans hstart, ?_⟩
    intro v hv
    rcases List.mem_cons.mp hv with rfl | hv
    · exact (le_max_right b v).trans hstart
    · exact hall v hv

theorem foldl_max_le {l : List L} {b c : L} (hb : b ≤ c) (hl : ∀ v ∈ l, v ≤ c) : l.foldl max b ≤ c := by
  induction l generalizing b with
  | nil => exact hb
  | cons x l ih =>
    rw [List.forall_mem_cons] at hl
    exact ih (max_le hb hl.1) hl.2

end Fold

theorem abs_le_peak {window : List K} {v : K} (h : v ∈ window) : |v| ≤ peak window :=
  (le_foldl_max _ 0).2 |v| (List.mem_map_of_mem h)

theorem peak_le {window : List K} {b : K} (hb : 0 ≤ b) (h : ∀ v ∈ window, |v| ≤ b) : peak window ≤ b := by
  apply foldl_max_le hb
  rintro _ habs
  obtain ⟨v, hv, rfl⟩ := List.mem_map.mp habs
  exact h v hv

/-! ## One pole -/

variable [IsStrictOrderedRing K]

theorem toward_pos (a : Alpha K) {x t : K} (hx : 0 < x) (ht : 0 < t) : 0 < toward a x t := by
  rw [toward_eq]
  apply add_pos_of_nonneg_of_pos
  · exact mul_nonneg (sub_nonneg.mpr a.le_one) hx.le
  · exact mul_pos a.pos ht

theorem toward_le (a : Alpha K) {x t b : K} (hx : x ≤ b) (ht : t ≤ b) : toward a x t ≤ b := by
  have hold := mul_le_mul_of_nonneg_left hx (sub_nonneg.mpr a.le_one)
  have hnew := mul_le_mul_of_nonneg_left ht a.pos.le
  rw [toward_eq]
  linarith

theorem lt_toward (a : Alpha K) {x t : K} (h : x < t) : x < toward a x t :=
  lt_add_of_pos_right x (mul_pos a.pos (sub_pos.mpr h))

/-! ## What a peak requires -/

theorem required_pos {ceiling : K} (hc : 0 < ceiling) (predicted : K) : 0 < required ceiling predicted := by
  unfold required
  split
  · rename_i hover
    exact div_pos hc (hc.trans hover)
  · exact one_pos

theorem required_le_one {ceiling : K} (hc : 0 < ceiling) (predicted : K) : required ceiling predicted ≤ 1 := by
  unfold required
  split
  · rename_i hover
    exact (div_le_one (hc.trans hover)).mpr hover.le
  · exact le_refl 1

/-- A gain up to one keeps `p` under the ceiling exactly when it is no more than `p` requires. -/
theorem mul_le_iff {ceiling p g : K} (hc : 0 < ceiling) (hp : 0 ≤ p) (hg : g ≤ 1) :
    p * g ≤ ceiling ↔ g ≤ required ceiling p := by
  unfold required
  split
  · rename_i hover
    rw [le_div_iff₀ (hc.trans hover), mul_comm]
  · rename_i hunder
    constructor
    · intro _
      exact hg
    · intro _
      exact (mul_le_of_le_one_right hp hg).trans (not_lt.mp hunder)

theorem required_anti {ceiling p q : K} (hc : 0 < ceiling) (hp : 0 ≤ p) (hpq : p ≤ q) :
    required ceiling q ≤ required ceiling p := by
  apply (mul_le_iff hc hp (required_le_one hc q)).mp
  have hq := (mul_le_iff hc (hp.trans hpq) (required_le_one hc q)).mpr (le_refl _)
  exact (mul_le_mul_of_nonneg_right hpq (required_pos hc q).le).trans hq

/-- One step of release passes the ceiling by no more than its share of what is above it. -/
theorem mul_toward_one_le (a : Alpha K) {ceiling p g : K} (hc : 0 < ceiling) (hp : 0 ≤ p)
    (hg : g ≤ required ceiling p) :
    p * toward a g 1 ≤ (1 - a.value) * ceiling + a.value * max p ceiling := by
  have hheld := (mul_le_iff hc hp (hg.trans (required_le_one hc p))).mpr hg
  have hkept := mul_le_mul_of_nonneg_left hheld (sub_nonneg.mpr a.le_one)
  have hfreed := mul_le_mul_of_nonneg_left (le_max_left p ceiling) a.pos.le
  calc p * toward a g 1 = (1 - a.value) * (p * g) + a.value * p := by
        rw [toward_eq]
        ring
    _ ≤ (1 - a.value) * ceiling + a.value * max p ceiling := add_le_add hkept hfreed

end GainReduction
