import Mathlib.Data.Nat.ModEq
import Mathlib.Tactic.Ring

/-! # Big-endian integers as bytes -/

namespace Endian

/-- The `k` low bytes of `v`, most significant first. -/
def beBytes : Nat → Nat → List UInt8
  | 0, _ => []
  | k + 1, v => UInt8.ofNat (v / 256 ^ k) :: beBytes k v

def ofBeBytes (l : List UInt8) : Nat := l.foldl (fun acc b => acc * 256 + b.toNat) 0

@[simp]
theorem length_beBytes (k v : Nat) : (beBytes k v).length = k := by
  induction k with
  | zero => rfl
  | succ k ih => simp [beBytes, ih]

theorem foldl_beBytes (k v acc : Nat) :
    (beBytes k v).foldl (fun acc b => acc * 256 + b.toNat) acc = acc * 256 ^ k + v % 256 ^ k := by
  induction k generalizing acc with
  | zero => simp [beBytes, Nat.mod_one]
  | succ k ih =>
    rw [beBytes, List.foldl_cons, ih, Nat.mod_pow_succ]
    simp only [UInt8.toNat_ofNat']
    ring

@[simp]
theorem ofBeBytes_beBytes (k v : Nat) : ofBeBytes (beBytes k v) = v % 256 ^ k := by
  simp [ofBeBytes, foldl_beBytes]

theorem foldl_add (l : List UInt8) (acc : Nat) :
    l.foldl (fun acc b => acc * 256 + b.toNat) acc = acc * 256 ^ l.length + ofBeBytes l := by
  induction l generalizing acc with
  | nil => simp [ofBeBytes]
  | cons b l ih =>
    simp only [ofBeBytes, List.foldl_cons, List.length_cons]
    rw [ih, ih (0 * 256 + b.toNat)]
    ring

theorem ofBeBytes_cons (b : UInt8) (l : List UInt8) :
    ofBeBytes (b :: l) = b.toNat * 256 ^ l.length + ofBeBytes l := by
  rw [ofBeBytes, List.foldl_cons, foldl_add]
  simp

theorem ofBeBytes_lt (l : List UInt8) : ofBeBytes l < 256 ^ l.length := by
  induction l with
  | nil => simp [ofBeBytes]
  | cons b l ih =>
    have hb : b.toNat + 1 ≤ 256 := b.toNat_lt
    have hmul := Nat.mul_le_mul_right (256 ^ l.length) hb
    rw [ofBeBytes_cons, List.length_cons, pow_succ]
    rw [Nat.add_mul] at hmul
    omega

theorem beBytes_add_mul (k v c : Nat) : beBytes k (c * 256 ^ k + v) = beBytes k v := by
  induction k generalizing c with
  | zero => rfl
  | succ k ih =>
    have hpow : 0 < 256 ^ k := Nat.pow_pos (by decide)
    rw [beBytes, beBytes, show c * 256 ^ (k + 1) + v = c * 256 * 256 ^ k + v by ring, ih]
    congr 1
    rw [Nat.add_comm, Nat.add_mul_div_right _ _ hpow]
    apply UInt8.toNat_inj.mp
    simp [UInt8.toNat_ofNat']

/-- Writing the number that bytes spell gives the bytes. -/
theorem beBytes_ofBeBytes (l : List UInt8) : beBytes l.length (ofBeBytes l) = l := by
  induction l with
  | nil => rfl
  | cons b l ih =>
    have hpow : 0 < 256 ^ l.length := Nat.pow_pos (by decide)
    rw [List.length_cons, beBytes, ofBeBytes_cons, beBytes_add_mul, ih]
    congr 1
    rw [Nat.add_comm, Nat.add_mul_div_right _ _ hpow, Nat.div_eq_of_lt (ofBeBytes_lt l)]
    simp

end Endian
