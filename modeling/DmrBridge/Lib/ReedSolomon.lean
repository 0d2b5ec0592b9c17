import Mathlib.Algebra.Field.Basic
import Mathlib.Algebra.CharP.Two
import Mathlib.Data.List.Induction
import Mathlib.Tactic.FieldSimp
import Mathlib.Tactic.LinearCombination
import Mathlib.Tactic.Ring

/-!
# Reed-Solomon codes with three check symbols

A word is a polynomial, its first symbol the leading coefficient. The check symbols come from a
shift register, and a single wrong symbol is found from the values at `α`, `α ^ 2` and `α ^ 3`.
-/

namespace ReedSolomon

/-! ## Values of a word -/

section Value

variable {R : Type*} [CommRing R]

def value (x : R) (w : List R) : R := w.foldl (fun acc c => acc * x + c) 0

@[simp]
theorem value_nil (x : R) : value x [] = 0 := rfl

theorem value_snoc (x : R) (w : List R) (c : R) : value x (w ++ [c]) = value x w * x + c := by
  rw [value, value, List.foldl_append]
  rfl

theorem value_append (x : R) (v w : List R) : value x (v ++ w) = value x v * x ^ w.length + value x w := by
  induction w using List.reverseRecOn with
  | nil => simp
  | append_singleton w c ih =>
    rw [← List.append_assoc, value_snoc, value_snoc, ih, List.length_append, List.length_singleton, pow_succ]
    ring

theorem value_cons (x : R) (c : R) (w : List R) : value x (c :: w) = c * x ^ w.length + value x w := by
  have h := value_append x [c] w
  simpa [value] using h

theorem value_zipWith (x : R) (v w : List R) (h : v.length = w.length) :
    value x (List.zipWith (· + ·) v w) = value x v + value x w := by
  induction v generalizing w with
  | nil =>
    have hw : w = [] := List.length_eq_zero_iff.mp h.symm
    simp [hw]
  | cons c v ih =>
    obtain ⟨d, w, rfl⟩ := List.exists_cons_of_length_eq_add_one h.symm
    have hlen : v.length = w.length := by simpa using h
    rw [List.zipWith_cons_cons, value_cons, value_cons, value_cons, ih w hlen, List.length_zipWith, hlen, Nat.min_self]
    ring

/-- A change of one symbol moves the value by a multiple of a power. -/
theorem value_set (x : R) (w : List R) (i : Nat) (h : i < w.length) (e : R) :
    value x (w.set i (w[i] + e)) = value x w + e * x ^ (w.length - 1 - i) := by
  induction w generalizing i with
  | nil => cases h
  | cons c w ih =>
    cases i with
    | zero =>
      simp only [List.set_cons_zero, List.getElem_cons_zero, value_cons, List.length_cons,
        Nat.add_sub_cancel, Nat.sub_zero]
      ring
    | succ i =>
      have hi : i < w.length := by simpa using h
      have hexp : w.length + 1 - 1 - (i + 1) = w.length - 1 - i := by omega
      simp only [List.set_cons_succ, List.getElem_cons_succ, value_cons, List.length_set, List.length_cons,
        ih i hi, hexp]
      ring

/-- One step of the register for a monic generator; `g` has its other coefficients, the constant one first. -/
def register (g p : R × R × R) (b : R) : R × R × R :=
  let d := b + p.2.2
  (g.1 * d, p.1 + g.2.1 * d, p.2.1 + g.2.2 * d)

def check (x : R) (p : R × R × R) : R := p.2.2 * x ^ 2 + p.2.1 * x + p.1

/-- In characteristic two, the register holds the remainder of the message at every root. -/
theorem check_register {g : R × R × R} {x : R} (hroot : x ^ 3 = check x g) (message : List R) :
    check x (message.foldl (register g) (0, 0, 0)) = value x message * x ^ 3 := by
  unfold check at hroot
  induction message using List.reverseRecOn with
  | nil => simp [check]
  | append_singleton message b ih =>
    rw [List.foldl_append, value_snoc]
    simp only [List.foldl_cons, List.foldl_nil, register, check] at ih ⊢
    generalize message.foldl (register g) (0, 0, 0) = p at ih
    linear_combination x * ih - (b + p.2.2) * hroot

/-- So a message followed by its check symbols vanishes at every root. -/
theorem value_codeword [CharP R 2] {g : R × R × R} {x : R} (hroot : x ^ 3 = check x g)
    (message : List R) {p : R × R × R} (hp : message.foldl (register g) (0, 0, 0) = p) :
    value x (message ++ [p.2.2, p.2.1, p.1]) = 0 := by
  have hcheck := check_register hroot message
  rw [hp] at hcheck
  have hvalue : value x [p.2.2, p.2.1, p.1] = check x p := by
    simp only [value, check, List.foldl_cons, List.foldl_nil]
    ring
  rw [value_append, hvalue, hcheck]
  exact CharTwo.add_self_eq_zero _

end Value

/-! ## One wrong symbol -/

section Locate

variable {F : Type*} [Field F]

/-- The three syndromes of an error `e` on the symbol of degree `p`. -/
theorem locator {α e : F} {p : Nat} (hα : α ≠ 0) (he : e ≠ 0) :
    (e * (α ^ 2) ^ p) / (e * α ^ p) = α ^ p := by
  have hp : α ^ p ≠ 0 := pow_ne_zero p hα
  rw [div_eq_iff (mul_ne_zero he hp)]
  ring

theorem magnitude {α e : F} {p : Nat} (hα : α ≠ 0) : (e * α ^ p) / α ^ p = e :=
  mul_div_cancel_right₀ e (pow_ne_zero p hα)

theorem consistent (α e : F) (p : Nat) :
    (e * α ^ p) * (e * (α ^ 3) ^ p) = (e * (α ^ 2) ^ p) * (e * (α ^ 2) ^ p) := by
  ring

/-- Syndromes that pass the consistency check are those of the one error the decoder finds. -/
theorem located {s₁ s₂ s₃ : F} (h₁ : s₁ ≠ 0) (h₂ : s₂ ≠ 0) (hconsistent : s₁ * s₃ = s₂ * s₂) :
    s₁ / (s₂ / s₁) * (s₂ / s₁) = s₁ ∧ s₁ / (s₂ / s₁) * (s₂ / s₁) ^ 2 = s₂ ∧ s₁ / (s₂ / s₁) * (s₂ / s₁) ^ 3 = s₃ := by
  refine ⟨?_, ?_, ?_⟩
  · field_simp
  · field_simp
  · field_simp
    linear_combination -hconsistent

theorem two_errors_inconsistent {e f x y : F} (he : e ≠ 0) (hf : f ≠ 0) (hx : x ≠ 0) (hy : y ≠ 0) (hxy : x ≠ y) :
    (e * x + f * y) * (e * x ^ 3 + f * y ^ 3) ≠ (e * x ^ 2 + f * y ^ 2) * (e * x ^ 2 + f * y ^ 2) := by
  intro h
  have hproduct : e * f * x * y * (x - y) ^ 2 = 0 := by linear_combination h
  have hne : e * f * x * y * (x - y) ^ 2 ≠ 0 :=
    mul_ne_zero (mul_ne_zero (mul_ne_zero (mul_ne_zero he hf) hx) hy) (pow_ne_zero 2 (sub_ne_zero.mpr hxy))
  exact hne hproduct

/-- Three check symbols with three roots are zero. -/
theorem eq_zero_of_check {x y z : F} {p : F × F × F} (hxy : x ≠ y) (hxz : x ≠ z) (hyz : y ≠ z) (hx : check x p = 0)
    (hy : check y p = 0) (hz : check z p = 0) : p = 0 := by
  obtain ⟨a, b, c⟩ := p
  unfold check at hx hy hz
  dsimp only at hx hy hz
  have hfirst : c * (x + y) + b = 0 := by
    apply mul_left_cancel₀ (sub_ne_zero.mpr hxy)
    linear_combination hx - hy
  have hsecond : c * (x + z) + b = 0 := by
    apply mul_left_cancel₀ (sub_ne_zero.mpr hxz)
    linear_combination hx - hz
  have hc : c = 0 := by
    apply mul_left_cancel₀ (sub_ne_zero.mpr hyz)
    linear_combination hfirst - hsecond
  have hb : b = 0 := by simpa [hc] using hfirst
  have ha : a = 0 := by simpa [hc, hb] using hx
  rw [ha, hb, hc]
  rfl

end Locate

end ReedSolomon
