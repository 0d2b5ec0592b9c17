import Mathlib.Data.Nat.Bitwise
import Mathlib.InformationTheory.Hamming

/-!
# Linear codes by table

A number below `2 ^ k` is encoded as a word of `n` bits, its exclusive or as the exclusive or of the
words. How far apart two words are is then how far one word is from zero.
-/

namespace LinearCode

/-- The sum of the rows that the bits of the data choose, the first row by the lowest bit. -/
def span : List Nat → Nat → Nat
  | [], _ => 0
  | row :: rows, data => (if data.testBit 0 then row else 0) ^^^ span rows (data / 2)

theorem span_xor (rows : List Nat) (a b : Nat) : span rows (a ^^^ b) = span rows a ^^^ span rows b := by
  induction rows generalizing a b with
  | nil => exact (Nat.xor_self 0).symm
  | cons row rows ih =>
    have hhead : (if (a ^^^ b).testBit 0 then row else 0) =
        (if a.testBit 0 then row else 0) ^^^ (if b.testBit 0 then row else 0) := by
      rw [Nat.testBit_xor]
      cases a.testBit 0 <;> cases b.testBit 0 <;> simp
    unfold span
    rw [hhead, Nat.xor_div_two, ih]
    ac_rfl

variable {k n distance : Nat} {word : Nat → Fin n → Bool}

/-- No two words of data of `k` bits are closer. -/
def Apart (k distance : Nat) (word : Nat → Fin n → Bool) : Prop :=
  ∀ a < 2 ^ k, ∀ b < 2 ^ k, a ≠ b → distance ≤ hammingDist (word a) (word b)

theorem hammingDist_word (hadd : ∀ a b i, word (a ^^^ b) i = (word a i ^^ word b i)) (a b : Nat) :
    hammingDist (word a) (word b) = hammingDist (word (a ^^^ b)) fun _ => false := by
  unfold hammingDist
  refine congrArg Finset.card (Finset.filter_congr fun i _ => ?_)
  rw [hadd]
  cases word a i <;> cases word b i <;> simp

/-- It is enough to look at the lightest word. -/
theorem apart_of_weight (hadd : ∀ a b i, word (a ^^^ b) i = (word a i ^^ word b i))
    (hweight : ∀ d < 2 ^ k, d ≠ 0 → distance ≤ hammingDist (word d) fun _ => false) : Apart k distance word := by
  intro a ha b hb hne
  rw [hammingDist_word hadd]
  exact hweight _ (Nat.xor_lt_two_pow ha hb) (mt Nat.xor_eq_zero_iff.mp hne)

/-- What is close to a word is that word or none. -/
theorem eq_of_near (hapart : Apart k distance word) {a b : Nat} (ha : a < 2 ^ k) (hb : b < 2 ^ k)
    (hnear : hammingDist (word b) (word a) < distance) : b = a := by
  by_contra hne
  exact absurd (hapart b hb a ha hne) (Nat.not_le.mpr hnear)

end LinearCode
