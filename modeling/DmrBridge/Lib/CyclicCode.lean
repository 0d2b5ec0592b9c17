import Mathlib.Data.Nat.Bitwise

/-!
# Cyclic codes

A number is a binary polynomial, its bit `i` the coefficient of degree `i`. The codewords are the
sums of shifts of the generator; data becomes one when the remainder of its long division is added.
-/

namespace CyclicCode

inductive Codeword (g : Nat) : Nat → Prop
  | zero : Codeword g 0
  | shift {w : Nat} (k : Nat) : Codeword g w → Codeword g (w ^^^ g <<< k)

def divideStep (g d r i : Nat) : Nat := if r.testBit i then r ^^^ g <<< (i - d) else r

/-- `d + n - 1` down to `d`. -/
def positions (d : Nat) : Nat → List Nat
  | 0 => []
  | n + 1 => (d + n) :: positions d n

def divide (g d n r : Nat) : Nat := (positions d n).foldl (divideStep g d) r

/-- The division takes a codeword off. -/
theorem codeword_divide (g d n r : Nat) : Codeword g (r ^^^ divide g d n r) := by
  have hfold (l : List Nat) (s : Nat) (h : Codeword g (r ^^^ s)) : Codeword g (r ^^^ l.foldl (divideStep g d) s) := by
    induction l generalizing s with
    | nil => exact h
    | cons i l ih =>
      apply ih
      unfold divideStep
      split
      · rw [← Nat.xor_assoc]
        exact h.shift _
      · exact h
  apply hfold
  rw [Nat.xor_self]
  exact .zero

theorem divideStep_lt {g d r i : Nat} (hlead : g.testBit d = true) (hg : g < 2 ^ (d + 1)) (hi : d ≤ i)
    (hr : r < 2 ^ (i + 1)) : divideStep g d r i < 2 ^ i := by
  have hhigh (j : Nat) (hj : i < j) : r.testBit j = false :=
    Nat.testBit_lt_two_pow (Nat.lt_of_lt_of_le hr (Nat.pow_le_pow_right (by decide) hj))
  apply Nat.lt_pow_two_of_testBit
  intro j hj
  unfold divideStep
  split
  · rename_i hbit
    rw [Nat.testBit_xor, Nat.testBit_shiftLeft]
    rcases Nat.eq_or_lt_of_le hj with rfl | hj
    · have hdeg : i - (i - d) = d := by omega
      rw [hbit, hdeg, hlead, decide_eq_true (by omega)]
      rfl
    · have hzero : g.testBit (j - (i - d)) = false :=
        Nat.testBit_lt_two_pow (Nat.lt_of_lt_of_le hg (Nat.pow_le_pow_right (by decide) (by omega)))
      rw [hhigh j hj, hzero, Bool.and_false]
      rfl
  · rename_i hbit
    rcases Nat.eq_or_lt_of_le hj with rfl | hj
    · simpa using hbit
    · exact hhigh j hj

theorem divide_lt {g d : Nat} (hlead : g.testBit d = true) (hg : g < 2 ^ (d + 1)) (n : Nat) {r : Nat}
    (hr : r < 2 ^ (d + n)) : divide g d n r < 2 ^ d := by
  induction n generalizing r with
  | zero => exact hr
  | succ n ih => exact ih (divideStep_lt hlead hg (by omega) hr)

/-- Data above the checks, and the remainder in their place. -/
theorem codeword_encode {g d n data : Nat} (hlead : g.testBit d = true) (hg : g < 2 ^ (d + 1)) (hdata : data < 2 ^ n) :
    Codeword g (data <<< d ||| divide g d n (data <<< d)) := by
  have hshift : data <<< d < 2 ^ (d + n) := by
    rw [Nat.shiftLeft_eq, Nat.pow_add, Nat.mul_comm]
    exact Nat.mul_lt_mul_of_pos_left hdata (Nat.two_pow_pos d)
  have hlow := divide_lt hlead hg n hshift
  have hor : data <<< d ||| divide g d n (data <<< d) = data <<< d ^^^ divide g d n (data <<< d) := by
    apply Nat.eq_of_testBit_eq
    intro i
    rw [Nat.testBit_or, Nat.testBit_xor, Nat.testBit_shiftLeft]
    by_cases hi : i < d
    · rw [decide_eq_false (by omega), Bool.false_and, Bool.false_or, Bool.false_xor]
    · have hzero : (divide g d n (data <<< d)).testBit i = false :=
        Nat.testBit_lt_two_pow (Nat.lt_of_lt_of_le hlow (Nat.pow_le_pow_right (by decide) (by omega)))
      rw [hzero, Bool.or_false, Bool.xor_false]
  rw [hor]
  exact codeword_divide g d n (data <<< d)

end CyclicCode
