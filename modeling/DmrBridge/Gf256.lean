import DmrBridge.Rs
import DmrBridge.Lib.PackedTable
import Mathlib.Algebra.Field.Basic
import Mathlib.Algebra.CharP.Two
import Mathlib.Logic.Function.Iterate

/-!
# The field of the Reed-Solomon code

The two tables make the bytes a field of characteristic two: `expTable` lists the powers of 2, and
to multiply is to take that many steps through it.
-/

open PackedTable

namespace DmrBridge

/-- Multiplication by 2, modulo the polynomial `0x11D`. -/
def xtime (a : UInt8) : UInt8 := (a <<< 1) ^^^ (if a.toNat.testBit 7 then 0x1D else 0)

theorem xtime_xor (a b : UInt8) : xtime (a ^^^ b) = xtime a ^^^ xtime b := by
  have hshift : (a ^^^ b) <<< 1 = (a <<< 1) ^^^ (b <<< 1) := by
    apply UInt8.toBitVec_inj.mp
    simp [BitVec.shiftLeft_xor_distrib]
  unfold xtime
  rw [hshift, UInt8.toNat_xor, Nat.testBit_xor]
  generalize a <<< 1 = u
  generalize b <<< 1 = v
  have hself : u ^^^ v = u ^^^ 0x1D ^^^ (v ^^^ 0x1D) := by
    rw [UInt8.xor_comm v, UInt8.xor_assoc, ← UInt8.xor_assoc 0x1D, UInt8.xor_self, UInt8.zero_xor]
  cases a.toNat.testBit 7 <;> cases b.toNat.testBit 7
  · simp
  · simp [UInt8.xor_assoc]
  · simp [UInt8.xor_assoc, UInt8.xor_comm v]
  · simpa using hself

/-! ## The tables -/

def expAt (i : Nat) : UInt8 := UInt8.ofNat (lookup (pack expTable.toList) i)

theorem expTable_get (i : Nat) (h : i < 512) : expTable.get ⟨i, h⟩ = expAt i := by
  rw [expAt, ← UInt8.toNat_inj, lookup_pack_vector expTable ⟨i, h⟩, UInt8.ofNat_toNat]

theorem logOf_eq_lookup (a : UInt8) : logOf a = lookup (pack logTable.toList) a.toNat := by
  rw [logOf, ← lookup_pack_vector]

theorem expAt_succ (i : Fin 509) : expAt (i.val + 1) = xtime (expAt i.val) := by
  revert i
  decide +kernel

theorem expAt_add_period (i : Fin 255) : expAt (i.val + 255) = expAt i.val := by
  revert i
  decide +kernel

theorem expAt_lookup_log (n : Fin 256) : n.val ≠ 0 →
    lookup (pack logTable.toList) n.val < 255 ∧ expAt (lookup (pack logTable.toList) n.val) = UInt8.ofNat n.val := by
  revert n
  decide +kernel

theorem lookup_log_expAt (i : Fin 255) : lookup (pack logTable.toList) (expAt i.val).toNat = i.val := by
  revert i
  decide +kernel

theorem expAt_logOf {a : UInt8} (h : a ≠ 0) : expAt (logOf a) = a := by
  have hlog := (expAt_lookup_log ⟨a.toNat, a.toNat_lt⟩ (by simpa [← UInt8.toNat_inj] using h)).2
  rw [logOf_eq_lookup, hlog, UInt8.ofNat_toNat]

theorem logOf_lt_period {a : UInt8} (h : a ≠ 0) : logOf a < 255 := by
  rw [logOf_eq_lookup]
  exact (expAt_lookup_log ⟨a.toNat, a.toNat_lt⟩ (by simpa [← UInt8.toNat_inj] using h)).1

theorem logOf_expAt {i : Nat} (h : i < 255) : logOf (expAt i) = i := by
  rw [logOf_eq_lookup]
  exact lookup_log_expAt ⟨i, h⟩

theorem expAt_add (i n : Nat) (h : i + n < 510) : expAt (i + n) = xtime^[n] (expAt i) := by
  induction n with
  | zero => rfl
  | succ n ih =>
    rw [Function.iterate_succ_apply', ← ih (by omega)]
    exact expAt_succ ⟨i + n, by omega⟩

/-! ## Products -/

theorem gmult_comm (a b : UInt8) : gmult a b = gmult b a := by
  simp only [gmult, Nat.add_comm (logOf a), Or.comm]

@[simp]
theorem gmult_zero (a : UInt8) : gmult a 0 = 0 := by simp [gmult]

@[simp]
theorem zero_gmult (a : UInt8) : gmult 0 a = 0 := by simp [gmult]

theorem xtime_iterate_zero (n : Nat) : xtime^[n] 0 = 0 := Function.iterate_fixed rfl n

/-- To multiply by `b` is to multiply by 2 as often as the logarithm of `b` says. -/
theorem gmult_eq_iterate (a : UInt8) {b : UInt8} (hb : b ≠ 0) : gmult a b = xtime^[logOf b] a := by
  by_cases ha : a = 0
  · rw [ha, zero_gmult, xtime_iterate_zero]
  · have hla := logOf_lt_period ha
    have hlb := logOf_lt_period hb
    rw [gmult, if_neg (by simp [ha, hb]), expTable_get, expAt_add _ _ (by omega), expAt_logOf ha]

theorem xtime_iterate_xor (n : Nat) (a b : UInt8) : xtime^[n] (a ^^^ b) = xtime^[n] a ^^^ xtime^[n] b := by
  induction n with
  | zero => rfl
  | succ n ih => simp only [Function.iterate_succ_apply', ih, xtime_xor]

theorem gmult_xor (a b c : UInt8) : gmult (a ^^^ b) c = gmult a c ^^^ gmult b c := by
  by_cases hc : c = 0
  · simp [hc]
  · simp only [gmult_eq_iterate _ hc, xtime_iterate_xor]

theorem gmult_xor_left (a b c : UInt8) : gmult a (b ^^^ c) = gmult a b ^^^ gmult a c := by
  rw [gmult_comm, gmult_xor, gmult_comm b, gmult_comm c]

theorem gmult_right_comm (a b c : UInt8) : gmult (gmult a b) c = gmult (gmult a c) b := by
  by_cases hb : b = 0
  · simp [hb]
  by_cases hc : c = 0
  · simp [hc]
  rw [gmult_eq_iterate _ hc, gmult_eq_iterate _ hb, gmult_eq_iterate _ hb, gmult_eq_iterate _ hc,
    ← Function.iterate_add_apply, ← Function.iterate_add_apply, Nat.add_comm]

theorem gmult_assoc (a b c : UInt8) : gmult (gmult a b) c = gmult a (gmult b c) := by
  rw [gmult_comm a (gmult b c), gmult_comm a b, gmult_right_comm]

theorem gmult_one (a : UInt8) : gmult a 1 = a := by
  rw [gmult_eq_iterate a (by decide), show logOf 1 = 0 from by decide +kernel]
  rfl

theorem gdiv_gmult {b : UInt8} (a : UInt8) (hb : b ≠ 0) : gmult (gdiv a b) b = a := by
  unfold gdiv
  split
  · rename_i ha
    rw [zero_gmult, ha]
  · rename_i ha
    have hla := logOf_lt_period ha
    have hlb := logOf_lt_period hb
    rw [gmult_eq_iterate _ hb, expTable_get, ← expAt_add _ _ (by omega), Nat.sub_add_cancel (by omega)]
    rw [expAt_add_period ⟨logOf a, hla⟩, expAt_logOf ha]

/-! ## The field -/

/-- A byte as an element of the field. -/
@[ext]
structure Gf256 where
  byte : UInt8
  deriving DecidableEq

namespace Gf256

instance : Zero Gf256 := ⟨⟨0⟩⟩
instance : Add Gf256 := ⟨fun a b => ⟨a.byte ^^^ b.byte⟩⟩
instance : Neg Gf256 := ⟨fun a => a⟩

instance : CommRing Gf256 where
  one := ⟨1⟩
  mul a b := ⟨gmult a.byte b.byte⟩
  add_assoc _ _ _ := Gf256.ext (UInt8.xor_assoc _ _ _)
  zero_add _ := Gf256.ext UInt8.zero_xor
  add_zero _ := Gf256.ext UInt8.xor_zero
  add_comm _ _ := Gf256.ext (UInt8.xor_comm _ _)
  neg_add_cancel _ := Gf256.ext UInt8.xor_self
  mul_assoc _ _ _ := Gf256.ext (gmult_assoc _ _ _)
  mul_comm _ _ := Gf256.ext (gmult_comm _ _)
  one_mul _ := Gf256.ext ((gmult_comm _ _).trans (gmult_one _))
  mul_one _ := Gf256.ext (gmult_one _)
  zero_mul a := Gf256.ext (zero_gmult a.byte)
  mul_zero a := Gf256.ext (gmult_zero a.byte)
  left_distrib _ _ _ := Gf256.ext (gmult_xor_left _ _ _)
  right_distrib _ _ _ := Gf256.ext (gmult_xor _ _ _)
  nsmul := nsmulRec
  zsmul := zsmulRec

theorem mk_xor (a b : UInt8) : (⟨a ^^^ b⟩ : Gf256) = ⟨a⟩ + ⟨b⟩ := rfl
theorem mk_gmult (a b : UInt8) : (⟨gmult a b⟩ : Gf256) = ⟨a⟩ * ⟨b⟩ := rfl

theorem mk_eq_zero {a : UInt8} : (⟨a⟩ : Gf256) = 0 ↔ a = 0 := by
  constructor
  · exact congrArg byte
  · exact Gf256.ext

theorem add_self (a : Gf256) : a + a = 0 := Gf256.ext UInt8.xor_self

instance : Nontrivial Gf256 := ⟨0, 1, fun h => by cases congrArg byte h⟩

instance : CharP Gf256 2 :=
  CharTwo.of_one_ne_zero_of_two_eq_zero one_ne_zero (one_add_one_eq_two.symm.trans (add_self 1))

instance : Field Gf256 where
  inv a := if a.byte = 0 then 0 else ⟨gdiv 1 a.byte⟩
  mul_inv_cancel a ha := by
    have hbyte : a.byte ≠ 0 := fun h => ha (Gf256.ext h)
    change a * (if a.byte = 0 then 0 else ⟨gdiv 1 a.byte⟩) = 1
    rw [if_neg hbyte, mul_comm]
    exact Gf256.ext (gdiv_gmult 1 hbyte)
  inv_zero := if_pos rfl
  nnqsmul := _
  nnqsmul_def := fun _ _ => rfl
  qsmul := _
  qsmul_def := fun _ _ => rfl

theorem mk_gdiv (a : UInt8) {b : UInt8} (hb : b ≠ 0) : (⟨gdiv a b⟩ : Gf256) = ⟨a⟩ / ⟨b⟩ := by
  have hne : (⟨b⟩ : Gf256) ≠ 0 := fun h => hb (mk_eq_zero.mp h)
  rw [eq_div_iff hne, ← mk_gmult, gdiv_gmult a hb]

/-- The primitive element of the tables. -/
def alpha : Gf256 := ⟨2⟩

theorem alpha_ne_zero : alpha ≠ 0 := fun h => by cases congrArg byte h

theorem mk_xtime (a : UInt8) : (⟨xtime a⟩ : Gf256) = ⟨a⟩ * alpha := by
  have htwo : logOf 2 = 1 := by decide +kernel
  have hmul := gmult_eq_iterate a (b := 2) (by decide)
  rw [htwo] at hmul
  exact Gf256.ext hmul.symm

theorem mk_expAt {i : Nat} (h : i < 510) : (⟨expAt i⟩ : Gf256) = alpha ^ i := by
  induction i with
  | zero => exact Gf256.ext (by decide +kernel)
  | succ i ih =>
    rw [expAt_succ ⟨i, by omega⟩, mk_xtime, ih (by omega), pow_succ]

end Gf256

end DmrBridge
