import DmrBridge.EmbeddedLc
import DmrBridge.Lib.Run

/-!
# Decoding embedded LC

`decode_raw` undoes the columns, corrects the seven rows and checks the CRC.
-/

namespace DmrBridge

/-! ## The decoder -/

inductive DecodeError where
  | hamming
  | crc (received computed : UInt8)
  deriving DecidableEq

/-- Undoes the column serialization. -/
def deserialize (raw : Bits 128) : Bits 128 :=
  (List.finRange 128).foldl (fun mat i => mat.setIfInBounds (columnOrder i.val) raw[i]) (.replicate 128 false)

def matrixRow (mat : Bits 128) (r : Fin 7) : Bits 16 := .ofFn fun c => mat[r.val * 16 + c.val]

theorem column_lt (p : Fin 128) : p.val % 16 < 16 := Nat.mod_lt _ (by decide)

def setMatrixRow (mat : Bits 128) (r : Fin 7) (row : Bits 16) : Bits 128 :=
  .ofFn fun p => if p.val / 16 = r.val then row.get ⟨p.val % 16, column_lt p⟩ else mat[p]

def correctMatrixRow (mat : Bits 128) (r : Fin 7) : Except DecodeError (Bits 128) :=
  match hamming1611Correct (matrixRow mat r) with
  | .error _ => .error .hamming
  | .ok row => .ok (setMatrixRow mat r row)

def matrixLcBits (mat : Bits 128) : Bits 72 :=
  .ofFn fun i =>
    if i.val < 11 then mat[i.val]
    else if i.val < 22 then mat[16 + (i.val - 11)]
    else mat[32 + (i.val - 22) / 10 * 16 + (i.val - 22) % 10]

def packBytes (bits : Bits 72) : Bytes 9 := .ofFn fun i => packMsb fun bit => bits.getD (i.val * 8 + bit) false

def matrixCrc (mat : Bits 128) : UInt8 :=
  (mat[42].toUInt8 <<< 4) ||| (mat[58].toUInt8 <<< 3) ||| (mat[74].toUInt8 <<< 2) ||| (mat[90].toUInt8 <<< 1) |||
    mat[106].toUInt8

def decodeRaw (raw : Bits 128) : Except DecodeError (Bytes 9) := do
  let mat ← (List.finRange 7).foldlM correctMatrixRow (deserialize raw)
  let lcBytes := packBytes (matrixLcBits mat)
  let received := matrixCrc mat
  let computed := crc5Embedded lcBytes
  if received ≠ computed then throw (.crc received computed)
  return lcBytes

/-! ## Columns -/

/-- The wrap by 127 is a remainder, but for the last index. -/
theorem columnOrder_eq (i : Nat) (h : i < 128) : columnOrder i = if i = 127 then 127 else i * 16 % 127 := by
  induction i with
  | zero => rfl
  | succ i ih =>
    have hprev : columnOrder i = i * 16 % 127 := by
      rw [ih (by omega), if_neg (by omega)]
    rw [columnOrder, hprev]
    split <;> split <;> omega

theorem columnOrder_lt (i : Nat) (h : i < 128) : columnOrder i < 128 := by
  rw [columnOrder_eq i h]
  split <;> omega

/-- 16 times 8 is 1 modulo 127. -/
theorem columnOrder_surj (p : Nat) (h : p < 128) : ∃ i : Fin 128, columnOrder i = p := by
  by_cases hp : p = 127
  · exact ⟨127, by rw [columnOrder_eq _ (by decide), hp]; rfl⟩
  · refine ⟨⟨p * 8 % 127, by omega⟩, ?_⟩
    rw [columnOrder_eq _ (by dsimp only; omega)]
    dsimp only
    rw [if_neg (by omega)]
    omega

/-- Every write puts `source`'s own bit in its place. -/
theorem foldl_setIfInBounds {n : Nat} (source : Bits n) {α : Type} (pos : α → Nat) (bit : α → Bool)
    (writes : List α) (hbit : ∀ w ∈ writes, source[pos w]? = some (bit w)) (mat : Bits n) (p : Nat) (hp : p < n) :
    (writes.foldl (fun mat w => mat.setIfInBounds (pos w) (bit w)) mat)[p] =
      if ∃ w ∈ writes, pos w = p then source[p] else mat[p] := by
  induction writes generalizing mat with
  | nil => simp
  | cons w writes ih =>
    rw [List.foldl_cons, ih fun v hv => hbit v (List.mem_cons_of_mem w hv)]
    have hw := hbit w List.mem_cons_self
    by_cases hrest : ∃ v ∈ writes, pos v = p
    · obtain ⟨v, hv, hpos⟩ := hrest
      rw [if_pos ⟨v, hv, hpos⟩, if_pos ⟨v, List.mem_cons_of_mem w hv, hpos⟩]
    · rw [if_neg hrest, Vector.getElem_setIfInBounds]
      by_cases hpw : pos w = p
      · subst hpw
        rw [if_pos rfl, if_pos ⟨w, List.mem_cons_self, rfl⟩]
        simpa [hp, eq_comm] using hw
      · rw [if_neg hpw, if_neg]
        rintro ⟨v, hv, hpos⟩
        rcases List.mem_cons.mp hv with rfl | hv
        · exact hpw hpos
        · exact hrest ⟨v, hv, hpos⟩

theorem deserialize_encodeRaw (lcBits : Bits 72) : deserialize (encodeRaw lcBits) = embeddedMatrix lcBits := by
  ext1 p hp
  obtain ⟨i, hi⟩ := columnOrder_surj p hp
  unfold deserialize
  rw [foldl_setIfInBounds (embeddedMatrix lcBits), if_pos ⟨i, List.mem_finRange i, hi⟩]
  intro i _
  have hlt := columnOrder_lt i i.isLt
  simp [encodeRaw, bits_getD _ _ hlt, hlt]

/-! ## Rows -/

def codewordRow (lcBits : Bits 72) (r : Fin 7) : Bits 16 :=
  let data := embeddedRow lcBits (crc5Embedded (packBytes lcBits)) r
  data ++ hamming1611Parity data

theorem embeddedMatrix_at (lcBits : Bits 72) (r : Fin 7) (c : Nat) (hc : c < 16) :
    (embeddedMatrix lcBits)[r.val * 16 + c] = (codewordRow lcBits r)[c] := by
  have hd : (r.val * 16 + c) / 16 = r.val := by omega
  have hm : (r.val * 16 + c) % 16 = c := by omega
  simp only [embeddedMatrix, Vector.getElem_ofFn]
  rw [dif_pos (by omega)]
  simp only [hd, hm]
  rfl

theorem matrixRow_at (mat : Bits 128) (r : Fin 7) (c : Nat) (hc : c < 16) :
    (matrixRow mat r)[c] = mat[r.val * 16 + c] := by
  simp only [matrixRow, Vector.getElem_ofFn]

theorem matrixRow_embeddedMatrix (lcBits : Bits 72) (r : Fin 7) :
    matrixRow (embeddedMatrix lcBits) r = codewordRow lcBits r := by
  ext1 c hc
  simp only [matrixRow, Vector.getElem_ofFn]
  exact embeddedMatrix_at lcBits r c hc

theorem hamming1611Correct_codeword (data : Bits 11) :
    hamming1611Correct (data ++ hamming1611Parity data) = .ok (data ++ hamming1611Parity data) := by
  have hdata : (Vector.ofFn fun i : Fin 11 => (data ++ hamming1611Parity data)[i.val]) = data := by
    ext1 i hi
    simp only [Vector.getElem_ofFn]
    exact Vector.getElem_append_left hi
  have hparity : (data ++ hamming1611Parity data).toList.drop 11 = (hamming1611Parity data).toList := by
    rw [Vector.toList_append]
    exact List.drop_left' data.length_toList
  simp only [hamming1611Correct, hdata, hparity, syndromeIndex_self, if_true]

theorem setMatrixRow_matrixRow (mat : Bits 128) (r : Fin 7) : setMatrixRow mat r (matrixRow mat r) = mat := by
  ext1 p hp
  have hat (c : Fin 16) : (matrixRow mat r).get c = mat[r.val * 16 + c.val] := by
    show (matrixRow mat r)[c.val] = mat[r.val * 16 + c.val]
    simp only [matrixRow, Vector.getElem_ofFn]
  simp only [setMatrixRow, Vector.getElem_ofFn, hat]
  split
  · rename_i h
    exact getElem_congr_idx (by omega)
  · rfl

theorem correctMatrixRow_embeddedMatrix (lcBits : Bits 72) (r : Fin 7) :
    correctMatrixRow (embeddedMatrix lcBits) r = .ok (embeddedMatrix lcBits) := by
  have hrow := matrixRow_embeddedMatrix lcBits r
  have hcorrect : hamming1611Correct (matrixRow (embeddedMatrix lcBits) r) =
      .ok (matrixRow (embeddedMatrix lcBits) r) := by
    rw [hrow]
    exact hamming1611Correct_codeword _
  unfold correctMatrixRow
  rw [hcorrect]
  simp only [setMatrixRow_matrixRow]

/-! ## The round trip -/

theorem embeddedRow_at (lcBits : Bits 72) (crc : UInt8) (r : Fin 7) (c : Nat) (hc : c < 11) (i : Nat) (hi : i < 72)
    (h : if r.val < 2 then i = r.val * 11 + c else c < 10 ∧ i = 22 + (r.val - 2) * 10 + c) :
    (embeddedRow lcBits crc r)[c] = lcBits[i] := by
  simp only [embeddedRow, Vector.getElem_ofFn]
  by_cases hr : r.val < 2
  · rw [if_pos hr] at h
    rw [dif_pos hr]
    exact getElem_congr_idx h.symm
  · rw [if_neg hr] at h
    rw [dif_neg hr, dif_pos h.1]
    exact getElem_congr_idx h.2.symm

theorem codewordRow_data (lcBits : Bits 72) (r : Fin 7) (c : Nat) (hc : c < 11) :
    (codewordRow lcBits r)[c] = (embeddedRow lcBits (crc5Embedded (packBytes lcBits)) r)[c] :=
  Vector.getElem_append_left hc

theorem matrixLcBits_embeddedMatrix (lcBits : Bits 72) : matrixLcBits (embeddedMatrix lcBits) = lcBits := by
  ext1 i hi
  have hat (r : Fin 7) (c : Nat) (hc : c < 11)
      (h : if r.val < 2 then i = r.val * 11 + c else c < 10 ∧ i = 22 + (r.val - 2) * 10 + c) :
      (embeddedMatrix lcBits)[r.val * 16 + c] = lcBits[i] := by
    rw [embeddedMatrix_at lcBits r c (by omega), codewordRow_data lcBits r c hc, embeddedRow_at lcBits _ r c hc i hi h]
  simp only [matrixLcBits, Vector.getElem_ofFn]
  split
  · rw [← hat 0 i (by omega) (by simp)]
    exact getElem_congr_idx (by simp)
  split
  · rw [← hat 1 (i - 11) (by omega) (by simp; omega)]
    exact getElem_congr_idx (by simp)
  · rw [← hat ⟨2 + (i - 22) / 10, by omega⟩ ((i - 22) % 10) (by omega) (by rw [if_neg] <;> dsimp only <;> omega)]
    exact getElem_congr_idx (by dsimp only; omega)

theorem crc5Embedded_lt (bytes : Bytes 9) : crc5Embedded bytes < 32 := by
  unfold crc5Embedded
  generalize bytes.foldl (fun total b => total + b.toNat) 0 = total
  rw [UInt8.lt_iff_toNat_lt, UInt8.toNat_ofNat']
  have h32 : (32 : UInt8).toNat = 32 := rfl
  omega

theorem crcBits_packed (crc : UInt8) (h : crc < 32) :
    ((crc.toNat.testBit 4).toUInt8 <<< 4) ||| ((crc.toNat.testBit 3).toUInt8 <<< 3) |||
      ((crc.toNat.testBit 2).toUInt8 <<< 2) ||| ((crc.toNat.testBit 1).toUInt8 <<< 1) |||
      (crc.toNat.testBit 0).toUInt8 = crc := by
  have hall : ∀ n : Fin 32, (((UInt8.ofNat n).toNat.testBit 4).toUInt8 <<< 4) |||
      (((UInt8.ofNat n).toNat.testBit 3).toUInt8 <<< 3) ||| (((UInt8.ofNat n).toNat.testBit 2).toUInt8 <<< 2) |||
      (((UInt8.ofNat n).toNat.testBit 1).toUInt8 <<< 1) ||| ((UInt8.ofNat n).toNat.testBit 0).toUInt8 =
        UInt8.ofNat n := by decide +kernel
  simpa using hall ⟨crc.toNat, UInt8.lt_iff_toNat_lt.mp h⟩

theorem matrixCrc_embeddedMatrix (lcBits : Bits 72) :
    matrixCrc (embeddedMatrix lcBits) = crc5Embedded (packBytes lcBits) := by
  have hat (r : Fin 7) (hr : 2 ≤ r.val) : (embeddedMatrix lcBits)[r.val * 16 + 10] =
      (crc5Embedded (packBytes lcBits)).toNat.testBit (4 - (r.val - 2)) := by
    rw [embeddedMatrix_at lcBits r 10 (by decide), codewordRow_data lcBits r 10 (by decide)]
    simp only [embeddedRow, Vector.getElem_ofFn]
    rw [dif_neg (by omega), dif_neg (by decide)]
  have h42 : (embeddedMatrix lcBits)[42] = _ := hat 2 (by decide)
  have h58 : (embeddedMatrix lcBits)[58] = _ := hat 3 (by decide)
  have h74 : (embeddedMatrix lcBits)[74] = _ := hat 4 (by decide)
  have h90 : (embeddedMatrix lcBits)[90] = _ := hat 5 (by decide)
  have h106 : (embeddedMatrix lcBits)[106] = _ := hat 6 (by decide)
  rw [matrixCrc, h42, h58, h74, h90, h106]
  exact crcBits_packed _ (crc5Embedded_lt _)

theorem decodeRaw_encodeRaw (lcBits : Bits 72) : decodeRaw (encodeRaw lcBits) = .ok (packBytes lcBits) := by
  have hrows := Run.foldlM_fixed (fun r => correctMatrixRow_embeddedMatrix lcBits r) (List.finRange 7)
  rw [← deserialize_encodeRaw] at hrows
  unfold decodeRaw
  rw [hrows, deserialize_encodeRaw]
  simp [bind, Except.bind, matrixLcBits_embeddedMatrix, matrixCrc_embeddedMatrix, pure, Except.pure]

theorem packBytes_bytesToBits (bytes : Bytes 9) : packBytes (bytesToBits bytes) = bytes := by
  ext1 i hi
  simp only [packBytes, Vector.getElem_ofFn]
  rw [← packMsb_msbBit bytes[i]]
  apply packMsb_congr
  intro bit hbit
  have hd : (i * 8 + bit) / 8 = i := by omega
  have hm : (i * 8 + bit) % 8 = bit := by omega
  rw [bits_getD _ _ (by omega)]
  simp only [bytesToBits, Vector.getElem_ofFn, hd, hm]

end DmrBridge
