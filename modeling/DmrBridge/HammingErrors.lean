import DmrBridge.Fec
import DmrBridge.Lib.BinaryCode

/-!
# The Hamming decoders on words with errors

A codeword with one wrong bit decodes to the codeword. Hamming(16,11) also tells two wrong bits.
-/

open BinaryCode

namespace DmrBridge

/-- The syndrome as the decoders index their tables with it. -/
def weigh (s : List Bool) : Nat := s.foldr (fun bit s => bit.toNat + 2 * s) 0

def syndrome1511 (w : Bits 15) : Nat := weigh (syndrome (k := 11) (m := 4) hamming1511Parity w)

def syndrome139 (w : Bits 13) : Nat := weigh (syndrome (k := 9) (m := 4) hamming139Parity w)

def syndrome1611 (w : Bits 16) : Nat := weigh (syndrome (k := 11) (m := 5) hamming1611Parity w)

def Valid1511 (w : Bits 15) : Prop := Valid (k := 11) (m := 4) hamming1511Parity w

def Valid139 (w : Bits 13) : Prop := Valid (k := 9) (m := 4) hamming139Parity w

def Valid1611 (w : Bits 16) : Prop := Valid (k := 11) (m := 5) hamming1611Parity w

theorem flipBit_single {n : Nat} (w : Bits n) (pos : Nat) : flipBit (add w (single pos)) pos = w := by
  ext1 i hi
  have hget : (add w (single pos)).get ⟨i, hi⟩ = (w[i] ^^ decide (i = pos)) := by
    show (add w (single pos))[i] = _
    rw [getElem_add, getElem_single]
  simp only [flipBit, Vector.getElem_ofFn, hget]
  by_cases h : i = pos <;> simp [h]

theorem flipBit_eq_add {n : Nat} (w : Bits n) (pos : Nat) : flipBit w pos = add w (single pos) := by
  ext1 i hi
  have hget : w.get ⟨i, hi⟩ = w[i] := rfl
  simp only [flipBit, Vector.getElem_ofFn, getElem_add, getElem_single, hget]
  by_cases h : i = pos <;> simp [h]

/-! ## Parities -/

theorem hamming1511_additive : Additive hamming1511Parity := by
  apply additive_of_sums #v[(0, [1, 2, 3, 5, 7, 8]), (1, [2, 3, 4, 6, 8, 9]), (2, [3, 4, 5, 7, 9, 10]),
    (0, [1, 2, 4, 6, 7, 10])]
  intro d j hj
  rcases (by omega : j = 0 ∨ j = 1 ∨ j = 2 ∨ j = 3) with rfl | rfl | rfl | rfl <;> rfl

theorem hamming139_additive : Additive hamming139Parity := by
  apply additive_of_sums #v[(0, [1, 3, 5, 6]), (0, [1, 2, 4, 6, 7]), (0, [1, 2, 3, 5, 7, 8]), (0, [2, 4, 5, 8])]
  intro d j hj
  rcases (by omega : j = 0 ∨ j = 1 ∨ j = 2 ∨ j = 3) with rfl | rfl | rfl | rfl <;> rfl

theorem hamming1611_additive : Additive hamming1611Parity := by
  apply additive_of_sums #v[(0, [1, 2, 3, 5, 7, 8]), (1, [2, 3, 4, 6, 8, 9]), (2, [3, 4, 5, 7, 9, 10]),
    (0, [1, 2, 4, 6, 7, 10]), (0, [2, 5, 6, 8, 9, 10])]
  intro d j hj
  rcases (by omega : j = 0 ∨ j = 1 ∨ j = 2 ∨ j = 3 ∨ j = 4) with rfl | rfl | rfl | rfl | rfl <;> rfl

/-! ## Tables -/

theorem syndrome1511_single : ∀ pos : Fin 15,
    syndrome1511 (single pos) ≠ 0 ∧ syndromeToPos1511.getD (syndrome1511 (single pos)) noPosition = pos := by
  decide

theorem syndrome139_single : ∀ pos : Fin 13,
    syndrome139 (single pos) ≠ 0 ∧ syndromeToPos139.getD (syndrome139 (single pos)) (-1) = pos := by
  decide

theorem syndrome1611_single : ∀ pos : Fin 16,
    syndrome1611 (single pos) ≠ 0 ∧ syndromeToPos1611.getD (syndrome1611 (single pos)) (-1) = pos := by
  decide

/-- The syndrome of each single bit of Hamming(16,11). -/
def column1611 : Vector Nat 16 := #v[25, 11, 31, 7, 14, 21, 26, 13, 19, 22, 28, 1, 2, 4, 8, 16]

def bits5 (n : Nat) : List Bool := (List.range 5).map n.testBit

theorem syndrome_single1611 : ∀ p : Fin 16,
    syndrome (k := 11) (m := 5) hamming1611Parity (single p) = bits5 column1611[p] := by
  decide

/-- No two columns of the code differ by nothing or by a third. -/
theorem column1611_double : ∀ p q : Fin 16, p ≠ q →
    weigh (List.zipWith (· ^^ ·) (bits5 column1611[p]) (bits5 column1611[q])) ≠ 0 ∧
      syndromeToPos1611.getD (weigh (List.zipWith (· ^^ ·) (bits5 column1611[p]) (bits5 column1611[q]))) (-1) < 0 := by
  decide +kernel

theorem syndrome1611_double (p q : Fin 16) (hpq : p ≠ q) :
    syndrome1611 (add (single p) (single q)) ≠ 0 ∧
      syndromeToPos1611.getD (syndrome1611 (add (single p) (single q))) (-1) < 0 := by
  unfold syndrome1611
  rw [syndrome_sum hamming1611_additive, syndrome_single1611, syndrome_single1611]
  exact column1611_double p q hpq

/-! ## Decoders -/

theorem hamming1511Correct_add {c e : Bits 15} (hc : Valid1511 c)
    (he : AtMostOne e) : hamming1511Correct (add c e) = (c, isHit e) := by
  have hs : syndromeIndex ((add c e).toList.drop 11) (hamming1511Parity (.ofFn fun i => (add c e)[i.val])).toList =
      syndrome1511 e := congrArg weigh (syndrome_add (k := 11) (m := 4) hamming1511_additive hc e)
  simp only [hamming1511Correct, hs]
  rcases atMostOne_cases he with ⟨rfl, hhit⟩ | ⟨pos, hpos, rfl, hhit⟩
  · rw [if_pos (by decide), hhit, add_replicate_false]
  · obtain ⟨hne, htable⟩ := syndrome1511_single ⟨pos, hpos⟩
    rw [if_neg hne, htable, hhit, flipBit_single]

theorem hamming139Correct_add {c e : Bits 13} (hc : Valid139 c)
    (he : AtMostOne e) : hamming139Correct (add c e) = .ok (c, isHit e) := by
  have hs : syndromeIndex ((add c e).toList.drop 9) (hamming139Parity (.ofFn fun i => (add c e)[i.val])).toList =
      syndrome139 e := congrArg weigh (syndrome_add (k := 9) (m := 4) hamming139_additive hc e)
  simp only [hamming139Correct, hs]
  rcases atMostOne_cases he with ⟨rfl, hhit⟩ | ⟨pos, hpos, rfl, hhit⟩
  · rw [if_pos (by decide), hhit, add_replicate_false]
  · obtain ⟨hne, htable⟩ := syndrome139_single ⟨pos, hpos⟩
    rw [if_neg hne, htable, if_neg (by simp), hhit, Int.toNat_natCast, flipBit_single]

theorem hamming1611Correct_syndrome {c e : Bits 16} (hc : Valid1611 c) :
    hamming1611Correct (add c e) =
      if syndrome1611 e = 0 then .ok (add c e)
      else if syndromeToPos1611.getD (syndrome1611 e) (-1) < 0 then .error {}
      else .ok (flipBit (add c e) (syndromeToPos1611.getD (syndrome1611 e) (-1)).toNat) := by
  have hs : syndromeIndex ((add c e).toList.drop 11) (hamming1611Parity (.ofFn fun i => (add c e)[i.val])).toList =
      syndrome1611 e := congrArg weigh (syndrome_add (k := 11) (m := 5) hamming1611_additive hc e)
  simp only [hamming1611Correct, hs]

theorem hamming1611Correct_add {c e : Bits 16} (hc : Valid1611 c)
    (he : AtMostOne e) : hamming1611Correct (add c e) = .ok c := by
  rw [hamming1611Correct_syndrome hc]
  rcases atMostOne_cases he with ⟨rfl, -⟩ | ⟨pos, hpos, rfl, -⟩
  · rw [if_pos (by decide), add_replicate_false]
  · obtain ⟨hne, htable⟩ := syndrome1611_single ⟨pos, hpos⟩
    rw [if_neg hne, htable, if_neg (by simp), Int.toNat_natCast, flipBit_single]

theorem hamming1611Correct_double {c : Bits 16} (hc : Valid1611 c) {p q : Nat}
    (hp : p < 16) (hq : q < 16) (hpq : p ≠ q) :
    hamming1611Correct (add c (add (single p) (single q))) = .error {} := by
  obtain ⟨hne, htable⟩ := syndrome1611_double ⟨p, hp⟩ ⟨q, hq⟩ fun h => hpq (congrArg Fin.val h)
  rw [hamming1611Correct_syndrome hc, if_neg hne, if_pos htable]

end DmrBridge
