import Mathlib.Data.List.Basic

/-!
# Byte tables as one number

A list is slow to index by evaluation. Its bytes in one number are not: a `decide` over a whole
table looks each entry up with a shift.
-/

namespace PackedTable

/-- The first byte is the lowest. -/
def pack (l : List UInt8) : Nat := l.foldr (fun b n => n * 256 + b.toNat) 0

def lookup (n i : Nat) : Nat := (n >>> (8 * i)) % 256

theorem pack_cons (b : UInt8) (l : List UInt8) : pack (b :: l) = pack l * 256 + b.toNat := rfl

theorem lookup_zero (n : Nat) (b : UInt8) : lookup (n * 256 + b.toNat) 0 = b.toNat := by
  have hb : b.toNat < 256 := b.toNat_lt
  simp only [lookup, Nat.mul_zero, Nat.shiftRight_zero]
  omega

theorem lookup_succ (n : Nat) (b : UInt8) (i : Nat) : lookup (n * 256 + b.toNat) (i + 1) = lookup n i := by
  have hb : b.toNat < 256 := b.toNat_lt
  have hbyte : (n * 256 + b.toNat) >>> 8 = n := by
    rw [Nat.shiftRight_eq_div_pow]
    omega
  rw [lookup, Nat.mul_add, Nat.mul_one, Nat.add_comm (8 * i), Nat.shiftRight_add, hbyte, lookup]

theorem lookup_pack (l : List UInt8) (i : Nat) (h : i < l.length) : lookup (pack l) i = l[i].toNat := by
  induction l generalizing i with
  | nil => cases h
  | cons b l ih =>
    rw [pack_cons]
    cases i with
    | zero => exact lookup_zero _ b
    | succ i => exact (lookup_succ _ b i).trans (ih i (by simpa using h))

theorem lookup_pack_vector {n : Nat} (v : Vector UInt8 n) (i : Fin n) :
    lookup (pack v.toList) i.val = (v.get i).toNat := by
  rw [lookup_pack v.toList i.val (by simp), Vector.getElem_toList]
  rfl

end PackedTable
