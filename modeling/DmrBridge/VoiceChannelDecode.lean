import DmrBridge.VoiceChannel
import DmrBridge.Lib.CyclicCode

/-!
# Decoding what AMBE channel coding makes
-/

open MsbBits

namespace DmrBridge.VoiceChannel

/-! ## Cells -/

theorem cellOf_injective : Function.Injective cellOf := by
  intro i j
  revert i j
  decide +kernel

/-- The columns of a row that are sent. -/
def rowWidth : Fin 4 → Nat
  | 0 => 24
  | 1 => 23
  | 2 => 11
  | 3 => 14

theorem cellOf_surj : ∀ row : Fin 4, ∀ col : Fin 24, col.val < rowWidth row → ∃ j, cellOf j = (row, col) := by
  decide +kernel

theorem getCell_setCell (fr : SourceMatrix) (cell cell' : Fin 4 × Fin 24) (bit : Bool) :
    getCell (setCell fr cell bit) cell' = if cell' = cell then bit else getCell fr cell' := by
  obtain ⟨row, col⟩ := cell
  obtain ⟨row', col'⟩ := cell'
  unfold getCell setCell
  rw [get_setAt]
  by_cases hrow : row' = row
  · subst hrow
    rw [if_pos rfl, get_setAt]
    simp
  · rw [if_neg hrow, if_neg fun h => hrow (congrArg Prod.fst h)]

def frameCells : Blocks SourceMatrix (Fin 72) Bool Bool where
  read fr j := getCell fr (cellOf j)
  write fr j bit := setCell fr (cellOf j) bit
  value bit := bit
  read_write fr j bit := (getCell_setCell fr (cellOf j) (cellOf j) bit).trans (if_pos rfl)
  read_write_ne fr j bit j' h :=
    (getCell_setCell fr (cellOf j) (cellOf j') bit).trans (if_neg fun hcell => h (cellOf_injective hcell))

theorem deinterleave_cell (coded : Bytes 9) (j : Fin 72) :
    getCell (deinterleave coded) (cellOf j) = (bytesToBits coded).get j :=
  frameCells.read_writeAll_of_mem (bytesToBits coded).get (List.nodup_finRange 72) (List.mem_finRange j) _

theorem interleave_bit (fr : SourceMatrix) (j : Fin 72) :
    (bytesToBits (interleave fr)).get j = getCell fr (cellOf j) := by
  have hidx : j.val / 8 * 8 + j.val % 8 = j.val := by omega
  show (bytesToBits (interleave fr))[j.val] = _
  simp only [bytesToBits, interleave, Vector.getElem_ofFn]
  rw [msbBit_packMsb _ _ (by omega), dif_pos (by omega)]
  simp only [hidx]

theorem deinterleave_interleave (fr : SourceMatrix) {row : Fin 4} {col : Fin 24} (h : col.val < rowWidth row) :
    getCell (deinterleave (interleave fr)) (row, col) = getCell fr (row, col) := by
  obtain ⟨j, hj⟩ := cellOf_surj row col h
  rw [← hj, deinterleave_cell, interleave_bit]

/-! ## Rows -/

theorem readMsbFirst_eq (bits : List Bool) : readMsbFirst bits = ofMsbBits bits := by
  have hstep : (fun (v : Nat) (bit : Bool) => v <<< 1 ||| bit.toNat) = fun v bit => 2 * v + bit.toNat := by
    funext v bit
    have hor := Nat.shiftLeft_add_eq_or_of_lt (b := bit.toNat) (i := 1)
      (Nat.lt_of_le_of_lt (Bool.toNat_le bit) (by decide)) v
    rw [← hor, Nat.shiftLeft_eq]
    omega
  unfold readMsbFirst ofMsbBits
  rw [hstep]

/-- The data of the codeword is read back from its top bits. -/
theorem golay2312_data (data i : Nat) : (golay2312Encode data).testBit (11 + i) = data.testBit i := by
  unfold golay2312Encode
  simp only
  generalize List.foldl _ _ _ = remainder
  have hlow : (remainder &&& 0x7FF).testBit (11 + i) = false := by
    have hmask : (0x7FF : Nat).testBit (11 + i) = false := by
      apply Nat.testBit_lt_two_pow
      calc 0x7FF < 2 ^ 11 := by decide
        _ ≤ 2 ^ (11 + i) := Nat.pow_le_pow_right (by decide) (by omega)
    rw [Nat.testBit_and, hmask, Bool.and_false]
  rw [Nat.testBit_or, hlow, Bool.or_false, Nat.testBit_shiftLeft]
  simp

theorem golay2412_data (data i : Nat) : (golay2412Encode data).testBit (12 + i) = data.testBit i := by
  have hshift : 12 + i = 1 + (11 + i) := by omega
  have hlow : (countOnes (golay2312Encode data) &&& 1).testBit (1 + (11 + i)) = false := by
    have hmask : (1 : Nat).testBit (1 + (11 + i)) = false := by
      apply Nat.testBit_lt_two_pow
      exact Nat.one_lt_two_pow (by omega)
    rw [Nat.testBit_and, hmask, Bool.and_false]
  unfold golay2412Encode
  simp only
  rw [hshift, Nat.testBit_or, hlow, Bool.or_false, Nat.testBit_shiftLeft, Nat.add_sub_cancel_left, golay2312_data]
  simp

/-- The loop of the encoder is the long division by the generator. -/
theorem golay2312_eq (data : Nat) : golay2312Encode data =
    data <<< 11 ||| CyclicCode.divide golay2312Gen 11 12 (data <<< 11) &&& (2 ^ 11 - 1) := rfl

theorem golay2312_codeword {data : Nat} (h : data < 2 ^ 12) :
    CyclicCode.Codeword golay2312Gen (golay2312Encode data) := by
  have hshift : data <<< 11 < 2 ^ (11 + 12) := by
    rw [Nat.shiftLeft_eq]
    omega
  have hlow := CyclicCode.divide_lt (g := golay2312Gen) (d := 11) (by decide) (by decide) 12 hshift
  rw [golay2312_eq, Nat.and_two_pow_sub_one_eq_mod, Nat.mod_eq_of_lt hlow]
  exact CyclicCode.codeword_encode (by decide) (by decide) h

theorem golay2312_lt {data : Nat} (h : data < 2 ^ 12) : golay2312Encode data < 2 ^ 23 := by
  rw [golay2312_eq, Nat.and_two_pow_sub_one_eq_mod]
  apply Nat.or_lt_two_pow
  · rw [Nat.shiftLeft_eq]
    omega
  · exact Nat.lt_of_lt_of_le (Nat.mod_lt _ (by decide)) (by decide)

theorem countOnes_shift {w : Nat} (h : w < 2 ^ 31) (b : Bool) :
    countOnes (w <<< 1 ||| b.toNat) = countOnes w + b.toNat := by
  have hzero : (w <<< 1 ||| b.toNat).testBit 0 = b := by
    rw [Nat.testBit_or, Nat.testBit_shiftLeft]
    cases b <;> rfl
  have hsucc (i : Nat) : (w <<< 1 ||| b.toNat).testBit (i + 1) = w.testBit i := by
    have hone : b.toNat.testBit (i + 1) = false :=
      Nat.testBit_lt_two_pow (Nat.lt_of_lt_of_le b.toNat_lt (Nat.le_self_pow (by omega) 2))
    rw [Nat.testBit_or, Nat.testBit_shiftLeft, hone]
    simp
  have htop : w.testBit 31 = false := Nat.testBit_lt_two_pow h
  have hlow : countOnes w = (List.range 31).countP w.testBit := by
    unfold countOnes
    rw [List.range_succ, List.countP_append, List.countP_singleton, htop]
    rfl
  have hhigh : ((List.range 31).map Nat.succ).countP (w <<< 1 ||| b.toNat).testBit =
    (List.range 31).countP w.testBit := by
    rw [List.countP_map]
    congr 1
    funext i
    exact hsucc i
  unfold countOnes at *
  rw [hlow, List.range_succ_eq_map, List.countP_cons, hhigh, hzero]
  cases b <;> rfl

/-- The bit added to the codeword makes its weight even. -/
theorem golay2412_even {data : Nat} (h : data < 2 ^ 12) : countOnes (golay2412Encode data) % 2 = 0 := by
  have hlt : golay2312Encode data < 2 ^ 31 := Nat.lt_of_lt_of_le (golay2312_lt h) (by decide)
  have hparity : countOnes (golay2312Encode data) &&& 1 =
    (decide (countOnes (golay2312Encode data) % 2 = 1)).toNat := by
    rw [Nat.and_one_is_mod]
    rcases Nat.mod_two_eq_zero_or_one (countOnes (golay2312Encode data)) with heven | hodd
    · rw [heven]
      rfl
    · rw [hodd]
      rfl
  simp only [golay2412Encode]
  rw [hparity, countOnes_shift hlt]
  by_cases hodd : countOnes (golay2312Encode data) % 2 = 1
  · rw [decide_eq_true hodd]
    show (_ + 1) % 2 = 0
    omega
  · rw [decide_eq_false hodd]
    show (_ + 0) % 2 = 0
    omega

theorem pnBits_getD (m n i pr : Nat) (hm : i < m) (hn : i < n) :
    (pnBits m pr).getD i false = (pnBits n pr).getD i false := by
  induction i generalizing m n pr with
  | zero =>
    obtain ⟨m, rfl⟩ := Nat.exists_eq_add_of_lt hm
    obtain ⟨n, rfl⟩ := Nat.exists_eq_add_of_lt hn
    rw [Nat.zero_add, Nat.zero_add, pnBits, pnBits]
    rfl
  | succ i ih =>
    obtain ⟨m, rfl⟩ : ∃ k, m = k + 1 := ⟨m - 1, by omega⟩
    obtain ⟨n, rfl⟩ : ∃ k, n = k + 1 := ⟨n - 1, by omega⟩
    rw [pnBits, pnBits, List.getD_cons_succ, List.getD_cons_succ]
    exact ih m n (pnNext pr) (by omega) (by omega)

/-! ## The coded matrix -/

/-- The number on row 0 and the one on row 1. -/
def row0Data (bits : Bits 49) : Nat := readMsbFirst (bits.toList.take 12)

def row1Data (bits : Bits 49) : Nat := readMsbFirst ((bits.toList.drop 12).take 12)

theorem row0Data_bit (bits : Bits 49) (i : Nat) (hi : i < 12) : (row0Data bits).testBit (11 - i) = bits[i] := by
  have hbit := testBit_ofMsbBits (w := 12) (i := i) (show (bits.toList.take 12).length = 12 by simp) hi
  unfold row0Data
  rw [readMsbFirst_eq, hbit]
  simp

theorem row1Data_bit (bits : Bits 49) (i : Nat) (hi : i < 12) : (row1Data bits).testBit (11 - i) = bits[12 + i] := by
  have hbit := testBit_ofMsbBits (w := 12) (i := i) (show ((bits.toList.drop 12).take 12).length = 12 by simp) hi
  unfold row1Data
  rw [readMsbFirst_eq, hbit]
  simp

theorem codedMatrix_row0 (bits : Bits 49) (col : Fin 24) :
    getCell (codedMatrix bits) (0, col) = (golay2412Encode (row0Data bits)).testBit col.val := by
  show (Vector.ofFn _)[col.val] = _
  rw [Vector.getElem_ofFn]
  rfl

theorem codedMatrix_row1 (bits : Bits 49) {col : Fin 24} (h : col.val < 23) :
    getCell (codedMatrix bits) (1, col) =
      ((golay2312Encode (row1Data bits)).testBit col.val ^^
        (pnSequence (row0Data bits) 23).getD (22 - col.val) false) := by
  show (Vector.ofFn _)[col.val] = _
  rw [Vector.getElem_ofFn]
  exact if_pos h

theorem codedMatrix_row2 (bits : Bits 49) {col : Fin 24} (h : col.val ≤ 10) :
    getCell (codedMatrix bits) (2, col) = bits.getD (24 + (10 - col.val)) false := by
  show (Vector.ofFn _)[col.val] = _
  rw [Vector.getElem_ofFn]
  exact if_pos h

theorem codedMatrix_row3 (bits : Bits 49) {col : Fin 24} (h : col.val ≤ 13) :
    getCell (codedMatrix bits) (3, col) = bits.getD (35 + (13 - col.val)) false := by
  show (Vector.ofFn _)[col.val] = _
  rw [Vector.getElem_ofFn]
  exact if_pos h

/-- What the decoder has of a coded matrix. -/
def sent (bits : Bits 49) : SourceMatrix := deinterleave (interleave (codedMatrix bits))

theorem sent_row0_data (bits : Bits 49) (i : Nat) (hi : i < 12) :
    getCell (sent bits) (0, ⟨23 - i, by omega⟩) = bits[i] := by
  have hcol : 23 - i = 12 + (11 - i) := by omega
  unfold sent
  rw [deinterleave_interleave _ (by show 23 - i < 24; omega), codedMatrix_row0]
  simp only [hcol]
  rw [golay2412_data, row0Data_bit bits i hi]

theorem row0Seed_sent (bits : Bits 49) : row0Seed (sent bits) = row0Data bits := by
  have hlist : (List.ofFn fun i : Fin 12 => getCell (sent bits) (0, ⟨23 - i.val, by omega⟩)) = bits.toList.take 12 := by
    apply List.ext_getElem (by simp)
    intro i hi _
    simp only [List.getElem_ofFn, List.getElem_take, Vector.getElem_toList]
    exact sent_row0_data bits i (by simpa using hi)
  unfold row0Seed row0Data
  rw [hlist]

theorem sent_row1 (bits : Bits 49) (col : Nat) (h : col < 23) :
    (getCell (sent bits) (1, ⟨col, by omega⟩) ^^ (pnSequence (row0Seed (sent bits)) 23).getD (22 - col) false) =
      (golay2312Encode (row1Data bits)).testBit col := by
  rw [row0Seed_sent]
  unfold sent
  rw [deinterleave_interleave _ (by show col < 23; omega), codedMatrix_row1 bits h, Bool.xor_assoc, Bool.xor_self,
    Bool.xor_false]

theorem sourceBits_sent (bits : Bits 49) : sourceBits (sent bits) = bits := by
  ext1 i hi
  simp only [sourceBits, Vector.getElem_ofFn]
  split
  · rename_i h
    exact sent_row0_data bits i h
  split
  · rename_i h12 h24
    have hrow := sent_row1 bits (22 - (i - 12)) (by omega)
    have hpn : (pnSequence (row0Seed (sent bits)) 12).getD (i - 12) false =
        (pnSequence (row0Seed (sent bits)) 23).getD (22 - (22 - (i - 12))) false := by
      have hidx : 22 - (22 - (i - 12)) = i - 12 := by omega
      rw [hidx]
      exact pnBits_getD 12 23 (i - 12) _ (by omega) (by omega)
    have hcol : 22 - (i - 12) = 11 + (11 - (i - 12)) := by omega
    rw [hpn, hrow, hcol, golay2312_data, row1Data_bit bits (i - 12) (by omega)]
    exact getElem_congr_idx (by omega)
  split
  · unfold sent
    rw [deinterleave_interleave _ (by show 10 - (i - 24) < 11; omega), codedMatrix_row2 _ (by dsimp only; omega)]
    dsimp only
    rw [bits_getD _ _ (by omega)]
    exact getElem_congr_idx (by omega)
  · unfold sent
    rw [deinterleave_interleave _ (by show 13 - (i - 35) < 14; omega), codedMatrix_row3 _ (by dsimp only; omega)]
    dsimp only
    rw [bits_getD _ _ (by omega)]
    exact getElem_congr_idx (by omega)

/-! ## Packing -/

theorem unpack_pack (bits : Bits 49) : unpackMsbFirst (packMsbFirst bits) = bits := by
  ext1 i hi
  have hidx : i / 8 * 8 + i % 8 = i := by omega
  simp only [unpackMsbFirst, packMsbFirst, Vector.getElem_ofFn]
  rw [msbBit_packMsb _ _ (by omega), hidx, bits_getD _ _ hi]

/-- The seven bits at the end of the last byte carry nothing. -/
theorem pack_unpack {packed : Bytes 7} (h : packed[6] &&& 0x7F = 0) :
    packMsbFirst (unpackMsbFirst packed) = packed := by
  have hlast (bit : Nat) (hbit : 0 < bit) (hbit' : bit < 8) : msbBit packed[6] bit = false := by
    have hzero := congrArg (fun b => b.toNat.testBit (7 - bit)) h
    simp only [UInt8.toNat_and, Nat.testBit_and] at hzero
    have hmask : (0x7F : UInt8).toNat.testBit (7 - bit) = true := by
      rcases (by omega : bit = 1 ∨ bit = 2 ∨ bit = 3 ∨ bit = 4 ∨ bit = 5 ∨ bit = 6 ∨ bit = 7) with
        rfl | rfl | rfl | rfl | rfl | rfl | rfl <;> rfl
    rw [hmask, Bool.and_true] at hzero
    unfold msbBit
    rw [hzero]
    exact Nat.zero_testBit _
  ext1 k hk
  simp only [packMsbFirst, Vector.getElem_ofFn]
  rw [← packMsb_msbBit packed[k]]
  apply packMsb_congr
  intro bit hbit
  by_cases hin : k * 8 + bit < 49
  · have hdiv : (k * 8 + bit) / 8 = k := by omega
    have hmod : (k * 8 + bit) % 8 = bit := by omega
    rw [bits_getD _ _ hin]
    simp only [unpackMsbFirst, Vector.getElem_ofFn, hdiv, hmod]
  · obtain rfl : k = 6 := by omega
    rw [hlast bit (by omega) hbit, Vector.getD, Array.getD_eq_getD_getElem?, Array.getElem?_eq_none (by simp; omega)]
    rfl

theorem mbelibToChip_injective : Function.Injective mbelibToChip.get := by
  intro i j
  revert i j
  decide +kernel

theorem mbelibToChip_surj : ∀ p, ∃ i, mbelibToChip.get i = p := by
  decide +kernel

def chipCells : Blocks (Bits 49) (Fin 49) Bool Bool where
  read chip i := chip.get (mbelibToChip.get i)
  write chip i bit := setAt chip (mbelibToChip.get i) bit
  value bit := bit
  read_write chip _ bit := (get_setAt chip _ _ bit).trans (if_pos rfl)
  read_write_ne chip _ bit _ h := (get_setAt chip _ _ bit).trans (if_neg fun hpos => h (mbelibToChip_injective hpos))

theorem toChip_get (bits : Bits 49) (i : Fin 49) : (toChip bits).get (mbelibToChip.get i) = bits.get i :=
  chipCells.read_writeAll_of_mem bits.get (List.nodup_finRange 49) (List.mem_finRange i) _

theorem fromChip_toChip (bits : Bits 49) : fromChip (toChip bits) = bits := by
  ext1 i hi
  simp only [fromChip, Vector.getElem_ofFn]
  exact toChip_get bits ⟨i, hi⟩

theorem toChip_fromChip (chip : Bits 49) : toChip (fromChip chip) = chip := by
  ext1 p hp
  obtain ⟨i, hi⟩ := mbelibToChip_surj ⟨p, hp⟩
  have hget : (fromChip chip).get i = chip.get (mbelibToChip.get i) := by
    show (fromChip chip)[i.val] = _
    simp only [fromChip, Vector.getElem_ofFn]
  have hchip := toChip_get (fromChip chip) i
  rw [hget, hi] at hchip
  exact hchip

/-! ## Round trips -/

theorem channelDecode_sent (raw : Bytes 7) : channelDecode (channelEncode raw) = packMsbFirst (unpackMsbFirst raw) := by
  have hsource := sourceBits_sent (fromChip (unpackMsbFirst raw))
  unfold sent at hsource
  unfold channelDecode channelEncode
  rw [hsource, toChip_fromChip]

theorem toSourceBits_encodeFromAmbeD (ambeD : Bits 49) : toSourceBits (encodeFromAmbeD ambeD) = packMsbFirst ambeD := by
  unfold toSourceBits encodeFromAmbeD
  rw [channelDecode_sent]
  unfold permuteMbelibToChip permuteChipToMbelib
  rw [unpack_pack, unpack_pack, unpack_pack, fromChip_toChip]

theorem channelDecode_channelEncode {raw : Bytes 7} (h : raw[6] &&& 0x7F = 0) :
    channelDecode (channelEncode raw) = raw := by
  rw [channelDecode_sent, pack_unpack h]

/-! ## The coded frame -/

/-- Row 1 without its whitening. -/
def row1Bit (fr : SourceMatrix) (col : Fin 24) : Bool :=
  getCell fr (1, col) ^^ (pnSequence (row0Seed fr) 23).getD (22 - col.val) false

/-- Columns 22 to 11 of row 1. -/
def row1Seed (fr : SourceMatrix) : Nat :=
  readMsbFirst (List.ofFn fun i : Fin 12 => row1Bit fr ⟨22 - i.val, by omega⟩)

/-- Both protected rows are the codewords of their data. -/
def WellFormed (coded : Bytes 9) : Prop :=
  (∀ col : Fin 24, getCell (deinterleave coded) (0, col) =
    (golay2412Encode (row0Seed (deinterleave coded))).testBit col.val) ∧
    ∀ col : Fin 24, col.val < 23 →
      row1Bit (deinterleave coded) col = (golay2312Encode (row1Seed (deinterleave coded))).testBit col.val

theorem row1Seed_sent (bits : Bits 49) : row1Seed (sent bits) = row1Data bits := by
  have hlist : (List.ofFn fun i : Fin 12 => row1Bit (sent bits) ⟨22 - i.val, by omega⟩) =
      (bits.toList.drop 12).take 12 := by
    apply List.ext_getElem (by simp)
    intro i hi _
    have hlt : i < 12 := by simpa using hi
    have hcol : 22 - i = 11 + (11 - i) := by omega
    simp only [List.getElem_ofFn, List.getElem_take, List.getElem_drop, Vector.getElem_toList]
    unfold row1Bit
    rw [sent_row1 bits (22 - i) (by omega), hcol, golay2312_data, row1Data_bit bits i hlt]
  unfold row1Seed row1Data
  rw [hlist]

theorem wellFormed_channelEncode (raw : Bytes 7) : WellFormed (channelEncode raw) := by
  have hsent : deinterleave (channelEncode raw) = sent (fromChip (unpackMsbFirst raw)) := rfl
  unfold WellFormed
  rw [hsent, row0Seed_sent, row1Seed_sent]
  constructor
  · intro col
    unfold sent
    rw [deinterleave_interleave _ col.isLt, codedMatrix_row0]
  · intro col hcol
    exact sent_row1 _ col.val hcol

end DmrBridge.VoiceChannel
