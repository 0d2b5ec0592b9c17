import DmrBridge.Bptc
import DmrBridge.Lib.Run
import DmrBridge.RsDecode

/-!
# Decoding voice LC headers and terminators

What `build_data_burst` writes decodes to the LC bits it was given, and the Reed-Solomon code of
the LC repairs one byte and tells the two data types apart.
-/

open Endian

namespace DmrBridge

/-! ## The decoder -/

def extractBurstInterleaved (burst : Bytes 33) : Bits 196 :=
  let burstBits : Bits 264 := .ofFn fun i => msbBit burst[i.val / 8] (i.val % 8)
  .ofFn fun i => if i.val < 98 then burstBits[i.val] else burstBits[i.val + 68]

structure DecodedVoiceLc where
  srcId : UInt32
  dstId : UInt32
  /-- Before the correction. -/
  rsSyndromes : Bytes 3
  rsCorrected : Bool
  bptcCorrectedBits : UInt8
  deriving DecidableEq

def lcMask (dataType : UInt8) : Bytes 3 := if dataType = 2 then lcTerminatorMask else lcHeaderMask

def lcBytes (bits : Bits 96) : Bytes 12 := .ofFn fun i => packMsb fun bit => bits.getD (i.val * 8 + bit) false

/-- The LC with its parity unmasked. -/
def lcCodeword (lc : Bytes 12) (mask : Bytes 3) : Bytes 12 :=
  .ofFn fun i => if h : i.val < 9 then lc[i] else lc[i] ^^^ mask[i.val - 9]

/-- `u32::from_be_bytes([0, a, b, c])` -/
def be24 (a b c : UInt8) : UInt32 := UInt32.ofNat (ofBeBytes [0, a, b, c])

def decodeVoiceLcBurst (burst : Bytes 33) (dataType : UInt8) : Option DecodedVoiceLc := do
  let (bits, bptcCorrectedBits) ← bptcDecodeCorrect (extractBurstInterleaved burst)
  let codeword := lcCodeword (lcBytes bits) (lcMask dataType)
  let (corrected, rsCorrected) := rs129Correct codeword
  return {
    srcId := be24 corrected[6] corrected[7] corrected[8]
    dstId := be24 corrected[3] corrected[4] corrected[5]
    rsSyndromes := rs129Syndromes codeword
    rsCorrected, bptcCorrectedBits }

/-! ## The burst -/

theorem extractBurst_at (burst : Bytes 33) (i : Nat) (hi : i < 196) :
    (extractBurstInterleaved burst)[i] =
      if i < 98 then msbBit burst[i / 8] (i % 8) else msbBit burst[(i + 68) / 8] ((i + 68) % 8) := by
  simp only [extractBurstInterleaved, Vector.getElem_ofFn]

theorem buildDataBurst_bit (lcBits : Bits 96) (dataType colorCode : UInt8) (sync : Bytes 6) (i : Nat) (hi : i < 264) :
    msbBit (buildDataBurst lcBits dataType colorCode sync)[i / 8] (i % 8) =
      (dataBurstBits (bptcEncode lcBits) (encodeSlotType dataType colorCode) sync)[i] := by
  have hdiv : i / 8 * 8 + i % 8 = i := by omega
  simp only [buildDataBurst, Vector.getElem_ofFn]
  rw [msbBit_packMsb _ _ (by omega), hdiv, bits_getD]

theorem dataBurstBits_first (interleaved : Bits 196) (slotType : Bits 20) (sync : Bytes 6) (i : Nat) (hi : i < 98) :
    (dataBurstBits interleaved slotType sync)[i] = interleaved[i] := by
  simp only [dataBurstBits, Vector.getElem_ofFn]
  rw [dif_pos hi]

theorem dataBurstBits_second (interleaved : Bits 196) (slotType : Bits 20) (sync : Bytes 6) (i : Nat)
    (h : 98 ≤ i) (hi : i < 196) : (dataBurstBits interleaved slotType sync)[i + 68] = interleaved[i] := by
  simp only [dataBurstBits, Vector.getElem_ofFn]
  rw [dif_neg (by omega), dif_neg (by omega), dif_neg (by omega), dif_neg (by omega)]
  exact getElem_congr_idx (by omega)

theorem extract_buildDataBurst (lcBits : Bits 96) (dataType colorCode : UInt8) (sync : Bytes 6) :
    extractBurstInterleaved (buildDataBurst lcBits dataType colorCode sync) = bptcEncode lcBits := by
  ext1 i hi
  rw [extractBurst_at _ i hi]
  split
  · rename_i h
    rw [buildDataBurst_bit _ _ _ _ i (by omega), dataBurstBits_first _ _ _ i h]
  · rename_i h
    rw [buildDataBurst_bit _ _ _ _ (i + 68) (by omega), dataBurstBits_second _ _ _ i (by omega) hi]

/-! ## Permutations -/

theorem deinterleave_interleave (matrix : Bits 196) : deinterleave (interleave matrix) = matrix := by
  have hinj : Function.Injective fun i : Fin 196 => (⟨i.val * 181 % 196, Nat.mod_lt _ (by decide)⟩ : Fin 196) := by
    intro i j h
    have hval : i.val * 181 % 196 = j.val * 181 % 196 := congrArg Fin.val h
    -- 13 is the inverse of 181.
    have hi : i.val * 181 % 196 * 13 % 196 = i.val := by omega
    have hj : j.val * 181 % 196 * 13 % 196 = j.val := by omega
    exact Fin.ext (by rw [← hi, hval, hj])
  ext1 i hi
  simp only [deinterleave, Vector.getElem_ofFn]
  exact scatter_get _ hinj matrix _ ⟨i, hi⟩

/-! ## The matrix -/

theorem addRowParity_data (matrix : Bits 196) (p : Nat) (hp : p < 196) (h : (p - 1) % 15 < 11) :
    (addRowParity matrix)[p] = matrix[p] := by
  simp only [addRowParity, Vector.getElem_ofFn]
  rw [dif_neg (by omega)]
  rfl

theorem addRowParity_parity (matrix : Bits 196) (r : Fin 9) (j : Nat) (hj : j < 4) :
    (addRowParity matrix)[r.val * 15 + 1 + (11 + j)] = (hamming1511Parity (rowData matrix r))[j] := by
  have hrow : (r.val * 15 + 1 + (11 + j) - 1) / 15 = r.val := by omega
  have hcol : (r.val * 15 + 1 + (11 + j) - 1) % 15 - 11 = j := by omega
  simp only [addRowParity, Vector.getElem_ofFn]
  rw [dif_pos (by omega)]
  simp only [hrow, hcol]

theorem addColumnParity_data (matrix : Bits 196) (p : Nat) (hp : p < 196) (h : (p - 1) / 15 < 9) :
    (addColumnParity matrix)[p] = matrix[p] := by
  simp only [addColumnParity, Vector.getElem_ofFn]
  rw [dif_neg (by omega)]
  rfl

theorem addColumnParity_parity (matrix : Bits 196) (c : Fin 15) (j : Nat) (hj : j < 4) :
    (addColumnParity matrix)[c.val + 1 + (9 + j) * 15] = (hamming139Parity (columnData matrix c))[j] := by
  have hrow : (c.val + 1 + (9 + j) * 15 - 1) / 15 - 9 = j := by omega
  have hcol : (c.val + 1 + (9 + j) * 15 - 1) % 15 = c.val := by omega
  simp only [addColumnParity, Vector.getElem_ofFn]
  rw [dif_pos (by omega)]
  simp only [hrow, hcol]

theorem extractData_encodedMatrix (data : Bits 96) : extractData (encodedMatrix data) = data := by
  ext1 i hi
  have hpos : (dataPositions[(⟨i, hi⟩ : Fin 96)]).val =
      if i < 8 then i + 4 else 16 + (i - 8) / 11 * 15 + (i - 8) % 11 := dataPositions_at ⟨i, hi⟩
  have hrow : ((dataPositions[(⟨i, hi⟩ : Fin 96)]).val - 1) / 15 < 9 := by
    rw [hpos]
    split <;> omega
  have hcol : ((dataPositions[(⟨i, hi⟩ : Fin 96)]).val - 1) % 15 < 11 := by
    rw [hpos]
    split <;> omega
  simp only [extractData, Vector.getElem_ofFn]
  have hlt := (dataPositions[(⟨i, hi⟩ : Fin 96)]).isLt
  calc (encodedMatrix data)[(dataPositions[(⟨i, hi⟩ : Fin 96)]).val]
      = (scatter (fun i => dataPositions[i]) data (.replicate 196 false))[(dataPositions[(⟨i, hi⟩ : Fin 96)]).val] := by
        rw [encodedMatrix, addColumnParity_data _ _ hlt hrow, addRowParity_data _ _ hlt hcol]
    _ = data[i] := scatter_get _ dataPositions_injective data _ ⟨i, hi⟩

theorem hamming1511Correct_of_valid (cw : Bits 15)
    (h : ∀ j, (hj : j < 4) → cw[11 + j] = (hamming1511Parity (.ofFn fun i => cw[i.val]))[j]) :
    hamming1511Correct cw = (cw, false) := by
  have hdrop : cw.toList.drop 11 = (hamming1511Parity (.ofFn fun i => cw[i.val])).toList := by
    apply List.ext_getElem (by simp)
    intro j hj _
    simp only [List.getElem_drop, Vector.getElem_toList]
    exact h j (by simpa using hj)
  rw [hamming1511Correct, hdrop, syndromeIndex_self, if_pos rfl]

theorem hamming139Correct_of_valid (cw : Bits 13)
    (h : ∀ j, (hj : j < 4) → cw[9 + j] = (hamming139Parity (.ofFn fun i => cw[i.val]))[j]) :
    hamming139Correct cw = .ok (cw, false) := by
  have hdrop : cw.toList.drop 9 = (hamming139Parity (.ofFn fun i => cw[i.val])).toList := by
    apply List.ext_getElem (by simp)
    intro j hj _
    simp only [List.getElem_drop, Vector.getElem_toList]
    exact h j (by simpa using hj)
  rw [hamming139Correct, hdrop, syndromeIndex_self, if_pos rfl]

theorem rowWord_checks (data : Bits 96) (r : Fin 9) (j : Nat) (hj : j < 4) :
    (rowWord (encodedMatrix data) r)[11 + j] =
      (hamming1511Parity (.ofFn fun i => (rowWord (encodedMatrix data) r)[i.val]))[j] := by
  set placed := scatter (fun i => dataPositions[i]) data (.replicate 196 false) with hplaced
  have hat (i : Nat) (hi : i < 15) :
      (rowWord (encodedMatrix data) r)[i] = (addRowParity placed)[r.val * 15 + 1 + i] := by
    simp only [rowWord, Vector.getElem_ofFn, encodedMatrix]
    exact addColumnParity_data _ _ (by omega) (by omega)
  have hdata : (Vector.ofFn fun i : Fin 11 => (rowWord (encodedMatrix data) r)[i.val]) = rowData placed r := by
    ext1 i hi
    simp only [Vector.getElem_ofFn, rowData]
    rw [hat i (by omega), addRowParity_data _ _ (by omega) (by omega)]
  rw [hdata, hat (11 + j) (by omega), addRowParity_parity placed r j hj]

theorem rowWord_valid (data : Bits 96) (r : Fin 9) :
    hamming1511Correct (rowWord (encodedMatrix data) r) = (rowWord (encodedMatrix data) r, false) := by
  apply hamming1511Correct_of_valid
  exact rowWord_checks data r

theorem columnWord_checks (data : Bits 96) (c : Fin 15) (j : Nat) (hj : j < 4) :
    (columnWord (encodedMatrix data) c)[9 + j] =
      (hamming139Parity (.ofFn fun i => (columnWord (encodedMatrix data) c)[i.val]))[j] := by
  set rows := addRowParity (scatter (fun i => dataPositions[i]) data (.replicate 196 false)) with hrows
  have hdata : (Vector.ofFn fun i : Fin 9 => (columnWord (encodedMatrix data) c)[i.val]) = columnData rows c := by
    ext1 i hi
    simp only [Vector.getElem_ofFn, columnData, columnWord, encodedMatrix]
    exact addColumnParity_data _ _ (by omega) (by omega)
  rw [hdata]
  simp only [columnWord, Vector.getElem_ofFn, encodedMatrix]
  exact addColumnParity_parity rows c j hj

theorem columnWord_valid (data : Bits 96) (c : Fin 15) :
    hamming139Correct (columnWord (encodedMatrix data) c) = .ok (columnWord (encodedMatrix data) c, false) := by
  apply hamming139Correct_of_valid
  exact columnWord_checks data c

theorem setRow_rowWord (matrix : Bits 196) (r : Fin 9) : setRow matrix r (rowWord matrix r) = matrix := by
  ext1 p hp
  simp only [setRow, Vector.getElem_ofFn]
  split
  · simp only [rowWord, Vector.getElem_ofFn]
    exact getElem_congr_idx (by omega)
  · rfl

theorem setColumn_columnWord (matrix : Bits 196) (c : Fin 15) : setColumn matrix c (columnWord matrix c) = matrix := by
  ext1 p hp
  simp only [setColumn, Vector.getElem_ofFn]
  split
  · simp only [columnWord, Vector.getElem_ofFn]
    exact getElem_congr_idx (by omega)
  · rfl

/-- Nothing is corrected on a block without errors. -/
theorem bptcDecodeCorrect_bptcEncode (data : Bits 96) : bptcDecodeCorrect (bptcEncode data) = some (data, 0) := by
  have hrows : (List.finRange 9).foldl correctRow (encodedMatrix data, 0) = (encodedMatrix data, 0) := by
    refine List.foldl_fixed' (fun r => ?_) _
    rw [correctRow, rowWord_valid]
    simp [setRow_rowWord]
  have hcolumns : (List.finRange 15).foldlM correctColumn (encodedMatrix data, 0) = some (encodedMatrix data, 0) := by
    refine Run.foldlM_fixed (fun c => ?_) _
    rw [correctColumn, columnWord_valid]
    simp [setColumn_columnWord]
  have hdeinterleave : deinterleave (bptcEncode data) = encodedMatrix data := deinterleave_interleave _
  rw [bptcDecodeCorrect, hdeinterleave, hrows]
  simp [hcolumns, extractData_encodedMatrix]

/-! ## The LC -/

theorem lcBytes_at (bits : Bits 96) (k : Nat) (hk : k < 12) :
    (lcBytes bits)[k] = packMsb fun bit => bits.getD (k * 8 + bit) false := by
  simp only [lcBytes, Vector.getElem_ofFn]

theorem lcBytes_of_bits {payload : Bytes 12} {bits : Bits 96} {k : Nat} (hk : k < 12)
    (h : ∀ i, (hi : i < 96) → i / 8 = k → bits[i] = msbBit payload[i / 8] (i % 8)) :
    (lcBytes bits)[k] = payload[k] := by
  rw [lcBytes_at bits k hk, ← packMsb_msbBit payload[k]]
  refine packMsb_congr fun bit hbit => ?_
  have hdiv : (k * 8 + bit) / 8 = k := by omega
  have hmod : (k * 8 + bit) % 8 = bit := by omega
  rw [bits_getD _ _ (by omega), h _ (by omega) hdiv]
  simp only [hdiv, hmod]

/-- The nine body bytes and the masked parity, which the LC bits spell. -/
def lcPayload (body : Bytes 9) (dataType : UInt8) : Bytes 12 := body ++ rs129Fec body (lcMask dataType)

theorem buildVoiceLc_eq {groupCall : Bool} {dstId srcId : UInt32} {body : Bytes 9} (dataType : UInt8)
    (h : lcBodyBytes groupCall dstId srcId = some body) :
    ∃ lc, buildVoiceLc groupCall dstId srcId dataType = some lc ∧
      ∀ i, (hi : i < 96) → lc[i] = msbBit (lcPayload body dataType)[i / 8] (i % 8) := by
  refine ⟨.ofFn fun i => msbBit (lcPayload body dataType)[i.val / 8] (i.val % 8), ?_, ?_⟩
  · rw [buildVoiceLc, h]
    rfl
  · intro i hi
    simp only [Vector.getElem_ofFn]

/-- What is left on the word when the mask of another data type is taken off. -/
def maskPattern (mask mask' : Bytes 3) : Bytes 12 :=
  .ofFn fun i => if h : i.val < 9 then 0 else mask[i.val - 9] ^^^ mask'[i.val - 9]

theorem lcCodeword_at (lc : Bytes 12) (mask : Bytes 3) (k : Nat) (hk : k < 12) :
    (lcCodeword lc mask)[k] = if h : k < 9 then lc[k] else lc[k] ^^^ mask[k - 9] := by
  simp only [lcCodeword, Vector.getElem_ofFn]
  rfl

theorem lcCodeword_lcPayload (body : Bytes 9) (dataType dataType' : UInt8) :
    lcCodeword (lcPayload body dataType) (lcMask dataType') =
      (rs129Codeword body).zipWith (· ^^^ ·) (maskPattern (lcMask dataType) (lcMask dataType')) := by
  ext1 k hk
  rw [lcCodeword_at _ _ k hk]
  simp only [Vector.getElem_zipWith, maskPattern, Vector.getElem_ofFn, lcPayload, rs129Codeword]
  split
  · rename_i h
    rw [Vector.getElem_append_left h, Vector.getElem_append_left h, UInt8.xor_zero]
  · rename_i h
    rw [Vector.getElem_append_right _ (by omega), Vector.getElem_append_right _ (by omega)]
    rcases (by omega : k = 9 ∨ k = 10 ∨ k = 11) with rfl | rfl | rfl <;> exact UInt8.xor_assoc _ _ _

theorem maskPattern_self (mask : Bytes 3) : maskPattern mask mask = .replicate 12 0 := by
  ext1 k hk
  simp [maskPattern]

theorem lcCodeword_self (body : Bytes 9) (dataType : UInt8) :
    lcCodeword (lcPayload body dataType) (lcMask dataType) = rs129Codeword body := by
  rw [lcCodeword_lcPayload, maskPattern_self]
  ext1 k hk
  simp

/-! ## Header and terminator -/

theorem be24_of_id {id : UInt32} (h : id ≤ max24Bit) {a b c : UInt8}
    (hbytes : (beBytes 4 id.toNat).drop 1 = [a, b, c]) :
    be24 a b c = id := by
  have hzero : ofBeBytes [0, a, b, c] = ofBeBytes [a, b, c] := by simp [ofBeBytes]
  rw [be24, hzero, ← hbytes, ofBeBytes_drop_one id h]

theorem rs129Codeword_body (body : Bytes 9) (k : Nat) (hk : k < 9) : (rs129Codeword body)[k] = body[k] := by
  simp only [rs129Codeword]
  exact Vector.getElem_append_left hk

/-- The ids sit in bytes 3 to 8. -/
theorem rs129Codeword_ids {groupCall : Bool} {dstId srcId : UInt32} {body : Bytes 9} (hdst : dstId ≤ max24Bit)
    (hsrc : srcId ≤ max24Bit) (h : lcBodyBytes groupCall dstId srcId = some body) :
    be24 (rs129Codeword body)[3] (rs129Codeword body)[4] (rs129Codeword body)[5] = dstId ∧
      be24 (rs129Codeword body)[6] (rs129Codeword body)[7] (rs129Codeword body)[8] = srcId := by
  rw [rs129Codeword_body body 3 (by decide), rs129Codeword_body body 4 (by decide),
    rs129Codeword_body body 5 (by decide), rs129Codeword_body body 6 (by decide),
    rs129Codeword_body body 7 (by decide), rs129Codeword_body body 8 (by decide)]
  obtain ⟨a, b, c, habc⟩ : ∃ a b c, (beBytes 4 dstId.toNat).drop 1 = [a, b, c] := ⟨_, _, _, rfl⟩
  obtain ⟨d, e, f, hdef⟩ : ∃ d e f, (beBytes 4 srcId.toNat).drop 1 = [d, e, f] := ⟨_, _, _, rfl⟩
  rw [lcBodyBytes, idTo24Be_eq _ hdst, idTo24Be_eq _ hsrc, habc, hdef] at h
  cases h
  exact ⟨be24_of_id hdst habc, be24_of_id hsrc hdef⟩

theorem decodeVoiceLcBurst_build (lc : Bits 96) (dataType dataType' colorCode : UInt8) (sync : Bytes 6) :
    decodeVoiceLcBurst (buildDataBurst lc dataType colorCode sync) dataType' =
      let codeword := lcCodeword (lcBytes lc) (lcMask dataType')
      let corrected := rs129Correct codeword
      some {
        srcId := be24 corrected.1[6] corrected.1[7] corrected.1[8]
        dstId := be24 corrected.1[3] corrected.1[4] corrected.1[5]
        rsSyndromes := rs129Syndromes codeword
        rsCorrected := corrected.2
        bptcCorrectedBits := 0 } := by
  rw [decodeVoiceLcBurst, extract_buildDataBurst, bptcDecodeCorrect_bptcEncode]
  simp only [Option.bind_eq_bind, Option.bind_some]
  rfl

/-- A header read as a terminator, or the reverse: three wrong bytes, whatever the LC. -/
theorem wrongMask_pattern (dataType dataType' : UInt8) (h : dataType = 1 ∨ dataType = 2)
    (h' : dataType' = 1 ∨ dataType' = 2) (hne : dataType' ≠ dataType) :
    maskPattern (lcMask dataType) (lcMask dataType') = #v[0, 0, 0, 0, 0, 0, 0, 0, 0, 0x0F, 0x0F, 0x0F] := by
  rcases h with rfl | rfl <;> rcases h' with rfl | rfl
  · exact absurd rfl hne
  · decide
  · decide
  · exact absurd rfl hne

theorem wrongMask_syndromes :
    (∀ i : Fin 3, (rs129Syndromes #v[0, 0, 0, 0, 0, 0, 0, 0, 0, 0x0F, 0x0F, 0x0F]).get i ≠ 0) ∧
      (rs129Correct #v[0, 0, 0, 0, 0, 0, 0, 0, 0, 0x0F, 0x0F, 0x0F]).2 = false := by
  decide +kernel

theorem voice_lc_round_trip (groupCall : Bool) (dstId srcId : UInt32) (hdst : dstId ≤ max24Bit)
    (hsrc : srcId ≤ max24Bit) (dataType : UInt8) (hdt : dataType = 1 ∨ dataType = 2) (colorCode : UInt8)
    (sync : Bytes 6) :
    ∃ lc, buildVoiceLc groupCall dstId srcId dataType = some lc ∧
      decodeVoiceLcBurst (buildDataBurst lc dataType colorCode sync) dataType =
        some { srcId, dstId, rsSyndromes := #v[0, 0, 0], rsCorrected := true, bptcCorrectedBits := 0 } ∧
      (∀ k < 12, ∀ lc' : Bits 96, (∀ i, (hi : i < 96) → i / 8 ≠ k → lc'[i] = lc[i]) →
        ∃ d, decodeVoiceLcBurst (buildDataBurst lc' dataType colorCode sync) dataType = some d ∧
          d.srcId = srcId ∧ d.dstId = dstId ∧ d.rsCorrected = true) ∧
      ∀ dataType', dataType' = 1 ∨ dataType' = 2 → dataType' ≠ dataType →
        ∃ d, decodeVoiceLcBurst (buildDataBurst lc dataType colorCode sync) dataType' = some d ∧
          d.rsCorrected = false ∧ ∀ i : Fin 3, d.rsSyndromes.get i ≠ 0 := by
  obtain ⟨body, hbody⟩ := Option.isSome_iff_exists.mp (lcBodyBytes_isSome groupCall dstId srcId hdst hsrc)
  obtain ⟨hdstId, hsrcId⟩ := rs129Codeword_ids hdst hsrc hbody
  obtain ⟨lc, hlc, hbits⟩ := buildVoiceLc_eq dataType hbody
  have hbytes : lcBytes lc = lcPayload body dataType := by
    ext1 k hk
    exact lcBytes_of_bits hk fun i hi _ => hbits i hi
  have hcodeword := isCodeword_rs129Codeword body
  refine ⟨lc, hlc, ?_, ?_, ?_⟩
  · rw [decodeVoiceLcBurst_build, hbytes, lcCodeword_self]
    simp only [rs129Correct_of_isCodeword hcodeword, hdstId, hsrcId]
    rw [show rs129Syndromes (rs129Codeword body) = #v[0, 0, 0] from hcodeword]
  · intro k hk lc' hsame
    -- Only byte `k` of the received word can be wrong.
    have hdiffers (i : Nat) (hi : i < 12) (hik : i ≠ k) :
        (lcCodeword (lcBytes lc') (lcMask dataType))[i] = (rs129Codeword body)[i] := by
      have hbyte : (lcBytes lc')[i] = (lcPayload body dataType)[i] := by
        refine lcBytes_of_bits hi fun j hj hji => ?_
        rw [hsame j hj (by omega), hbits j hj]
      rw [← lcCodeword_self body dataType, lcCodeword_at _ _ i hi, lcCodeword_at _ _ i hi, hbyte]
    have hcorrect := rs129Correct_of_differs hcodeword hk hdiffers
    refine ⟨_, decodeVoiceLcBurst_build lc' dataType dataType colorCode sync, ?_⟩
    simp only [hcorrect]
    exact ⟨hsrcId, hdstId, trivial⟩
  · intro dataType' hdt' hne
    have hpattern := wrongMask_pattern dataType dataType' hdt hdt' hne
    have hword : lcCodeword (lcBytes lc) (lcMask dataType') =
        (rs129Codeword body).zipWith (· ^^^ ·) #v[0, 0, 0, 0, 0, 0, 0, 0, 0, 0x0F, 0x0F, 0x0F] := by
      rw [hbytes, lcCodeword_lcPayload, hpattern]
    have hsyndromes := rs129Syndromes_xor hcodeword #v[0, 0, 0, 0, 0, 0, 0, 0, 0, 0x0F, 0x0F, 0x0F]
    refine ⟨_, decodeVoiceLcBurst_build lc dataType dataType' colorCode sync, ?_, ?_⟩
    · simp only [hword]
      rw [rs129Correct_of_syndromes hsyndromes, wrongMask_syndromes.2]
    · simp only [hword, hsyndromes]
      exact wrongMask_syndromes.1

theorem voice_lc_round_trip_sample :
    ∃ lc, buildVoiceLc true 91 3151238 1 = some lc ∧
      decodeVoiceLcBurst (buildDataBurst lc 1 1 (.replicate 6 0)) 1 =
        some { srcId := 3151238, dstId := 91, rsSyndromes := #v[0, 0, 0], rsCorrected := true,
               bptcCorrectedBits := 0 } := by
  obtain ⟨lc, hlc, hdecoded, -⟩ :=
    voice_lc_round_trip true 91 3151238 (by decide) (by decide) 1 (.inl rfl) 1 (.replicate 6 0)
  exact ⟨lc, hlc, hdecoded⟩

end DmrBridge
