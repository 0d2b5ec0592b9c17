import Mathlib.Data.List.Basic
import Mathlib.Data.List.Induction
import Mathlib.Data.Nat.Bitwise

/-!
# Bit strings, highest bit first

A number written in `w` bits, and the fields of width `w` read from a bit string. Shifting numbers
together appends their strings.
-/

namespace MsbBits

/-- The low `w` bits of `v`. -/
def msbBits (w v : Nat) : List Bool := (List.range w).map fun i => v.testBit (w - 1 - i)

@[simp]
theorem length_msbBits (w v : Nat) : (msbBits w v).length = w := by simp [msbBits]

@[simp]
theorem getElem_msbBits (w v i : Nat) (h : i < (msbBits w v).length) :
    (msbBits w v)[i] = v.testBit (w - 1 - i) := by
  simp [msbBits]

theorem msbBits_congr {w u v : Nat} (h : ∀ p < w, u.testBit p = v.testBit p) : msbBits w u = msbBits w v := by
  apply List.ext_getElem (by simp)
  intro i hi _
  rw [length_msbBits] at hi
  rw [getElem_msbBits, getElem_msbBits]
  exact h _ (by omega)

theorem msbBits_add (a b v : Nat) : msbBits (a + b) v = msbBits a (v >>> b) ++ msbBits b v := by
  apply List.ext_getElem (by simp)
  intro i hi _
  rw [length_msbBits] at hi
  rw [getElem_msbBits, List.getElem_append]
  split
  · rename_i ha
    rw [length_msbBits] at ha
    rw [getElem_msbBits, Nat.testBit_shiftRight]
    congr 1
    omega
  · rename_i ha
    rw [length_msbBits] at ha
    simp only [getElem_msbBits, length_msbBits]
    congr 1
    omega

theorem msbBits_mod_two_pow {w n : Nat} (h : w ≤ n) (v : Nat) : msbBits w (v % 2 ^ n) = msbBits w v := by
  apply msbBits_congr
  intro p hp
  rw [Nat.testBit_mod_two_pow, decide_eq_true (Nat.lt_of_lt_of_le hp h), Bool.true_and]

theorem msbBits_zero (w : Nat) : msbBits w 0 = List.replicate w false := by
  apply List.ext_getElem (by simp)
  intro i hi _
  simp

theorem msbBits_shiftLeft_or (a b u v : Nat) (hv : v < 2 ^ b) :
    msbBits (a + b) (u <<< b ||| v) = msbBits a u ++ msbBits b v := by
  have hhigh : (u <<< b ||| v) >>> b = u := by
    rw [Nat.shiftRight_or_distrib, Nat.shiftLeft_shiftRight, Nat.shiftRight_eq_zero v b hv, Nat.or_zero]
  have hlow : msbBits b (u <<< b ||| v) = msbBits b v := by
    apply msbBits_congr
    intro p hp
    simp [Nat.testBit_shiftLeft, hp]
  rw [msbBits_add, hhigh, hlow]

theorem msbBits_shiftLeft (a b u : Nat) : msbBits (a + b) (u <<< b) = msbBits a u ++ List.replicate b false := by
  have h := msbBits_shiftLeft_or a b u 0 (Nat.two_pow_pos b)
  rwa [Nat.or_zero, msbBits_zero] at h

/-- A string of `n` fields, the first one from the top. -/
theorem msbBits_mul (w n v : Nat) :
    msbBits (n * w) v = (List.range n).flatMap fun i => msbBits w (v >>> ((n - 1 - i) * w)) := by
  induction n generalizing v with
  | zero => simp [msbBits]
  | succ n ih =>
    have hfields : ((List.range n).flatMap fun i => msbBits w ((v >>> w) >>> ((n - 1 - i) * w))) =
        (List.range n).flatMap fun i => msbBits w (v >>> ((n - i) * w)) := by
      apply List.flatMap_congr
      intro i hi
      rw [← Nat.shiftRight_add, show n - i = n - 1 - i + 1 by grind, Nat.add_mul, Nat.one_mul, Nat.add_comm w]
    rw [Nat.add_mul, Nat.one_mul, msbBits_add, ih, hfields, List.range_succ, List.flatMap_append]
    simp

/-! ## Reading -/

def ofMsbBits (bits : List Bool) : Nat := bits.foldl (fun v bit => 2 * v + bit.toNat) 0

theorem ofMsbBits_msbBits {w v : Nat} (h : v < 2 ^ w) : ofMsbBits (msbBits w v) = v := by
  induction w generalizing v with
  | zero =>
    obtain rfl : v = 0 := by omega
    rfl
  | succ w ih =>
    have hhalf : v >>> 1 < 2 ^ w := by
      rw [Nat.shiftRight_one]
      omega
    have hlast : msbBits 1 v = [v.testBit 0] := rfl
    have hbit : (v.testBit 0).toNat = v % 2 := by
      rw [Nat.testBit_zero]
      rcases Nat.mod_two_eq_zero_or_one v with h0 | h1
      · simp [h0]
      · simp [h1]
    have hinit := ih hhalf
    unfold ofMsbBits at hinit ⊢
    rw [msbBits_add, hlast, List.foldl_append, hinit]
    simp only [List.foldl_cons, List.foldl_nil, hbit, Nat.shiftRight_one]
    omega

theorem ofMsbBits_snoc (bits : List Bool) (bit : Bool) :
    ofMsbBits (bits ++ [bit]) = 2 * ofMsbBits bits + bit.toNat := by
  unfold ofMsbBits
  rw [List.foldl_append]
  rfl

theorem msbBits_ofMsbBits (bits : List Bool) : msbBits bits.length (ofMsbBits bits) = bits := by
  induction bits using List.reverseRecOn with
  | nil => rfl
  | append_singleton bits bit ih =>
    have hhalf : ofMsbBits (bits ++ [bit]) >>> 1 = ofMsbBits bits := by
      have hbit : bit.toNat ≤ 1 := Bool.toNat_le bit
      rw [ofMsbBits_snoc, Nat.shiftRight_one]
      omega
    have hlast : msbBits 1 (ofMsbBits (bits ++ [bit])) = [bit] := by
      have hzero : (ofMsbBits (bits ++ [bit])).testBit 0 = bit := by
        rw [ofMsbBits_snoc, Nat.testBit_zero]
        cases bit <;> simp
      simp [msbBits, hzero]
    rw [List.length_append, List.length_singleton, msbBits_add, hhalf, ih, hlast]

theorem testBit_ofMsbBits {bits : List Bool} {w i : Nat} (hw : bits.length = w) (h : i < w) :
    (ofMsbBits bits).testBit (w - 1 - i) = bits[i] := by
  subst hw
  have hlist := msbBits_ofMsbBits bits
  have hget := List.getElem_of_eq hlist.symm h
  rw [hget, getElem_msbBits]

/-- A number put together from its own bits. -/
theorem testBit_foldl_or (x : Nat) (shifts : List Nat) (acc k : Nat) :
    (shifts.foldl (fun v s => v ||| (x.testBit s).toNat <<< s) acc).testBit k =
      (acc.testBit k || (decide (k ∈ shifts) && x.testBit k)) := by
  induction shifts generalizing acc with
  | nil => simp
  | cons s shifts ih =>
    have hbit : ((x.testBit s).toNat <<< s).testBit k = (decide (k = s) && x.testBit k) := by
      rw [Nat.testBit_shiftLeft]
      by_cases hks : k = s
      · subst hks
        cases x.testBit k <;> simp
      · by_cases hle : s ≤ k
        · have hpos : (x.testBit s).toNat.testBit (k - s) = false := by
            apply Nat.testBit_lt_two_pow
            exact Nat.lt_of_le_of_lt (Bool.toNat_le _) (Nat.one_lt_two_pow (by omega))
          rw [hpos, Bool.and_false, decide_eq_false hks, Bool.false_and]
        · rw [decide_eq_false (by omega), decide_eq_false hks, Bool.false_and, Bool.false_and]
    have hmem : decide (k ∈ s :: shifts) = (decide (k = s) || decide (k ∈ shifts)) := by
      simp only [List.mem_cons, Bool.decide_or]
    rw [List.foldl_cons, ih, Nat.testBit_or, hbit, hmem, Bool.or_assoc, Bool.and_or_distrib_right]

/-- The first `n` fields of `w` bits each. -/
def readFields (w : Nat) : Nat → List Bool → List Nat
  | 0, _ => []
  | n + 1, bits => ofMsbBits (bits.take w) :: readFields w n (bits.drop w)

theorem readFields_flatMap {w : Nat} (values : List Nat) (h : ∀ v ∈ values, v < 2 ^ w) (rest : List Bool) :
    readFields w values.length (values.flatMap (msbBits w) ++ rest) = values := by
  induction values with
  | nil => rfl
  | cons v values ih =>
    have htake : (msbBits w v ++ (values.flatMap (msbBits w) ++ rest)).take w = msbBits w v :=
      List.take_left' (length_msbBits w v)
    have hdrop : (msbBits w v ++ (values.flatMap (msbBits w) ++ rest)).drop w = values.flatMap (msbBits w) ++ rest :=
      List.drop_left' (length_msbBits w v)
    rw [List.flatMap_cons, List.append_assoc, List.length_cons, readFields, htake, hdrop,
      ofMsbBits_msbBits (h v List.mem_cons_self), ih fun u hu => h u (List.mem_cons_of_mem v hu)]

end MsbBits
