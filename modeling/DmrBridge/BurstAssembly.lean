import DmrBridge.BptcDecode
import DmrBridge.Frame

/-!
# Bursts and their parts

A voice burst is three AMBE frames and a sync section, and nothing else. Voice bursts are packed by
dibits and data bursts by bits; both put the sync section on bits 108 to 155.
-/

namespace DmrBridge

/-! ## Putting the parts back -/

theorem dibitsToBytes_burstToDibits (data : Bytes 33) : dibitsToBytes (burstToDibits data) = data := by
  ext1 i hi
  have h0 := burstToDibits_at data i 0 hi (by omega)
  simp only [Nat.add_zero] at h0
  simp only [dibitsToBytes, Vector.getElem_ofFn, h0, burstToDibits_at data i 1 hi (by omega),
    burstToDibits_at data i 2 hi (by omega), burstToDibits_at data i 3 hi (by omega)]
  exact dibitsToByte_dibits data[i]

theorem burstToDibits_lt (data : Bytes 33) (i : Nat) (hi : i < 132) : (burstToDibits data)[i] < 4 := by
  simp only [burstToDibits, Vector.getElem_ofFn]
  exact byteToDibits_lt _ _ _

theorem unpackDibits_packDibits (dibits : Vector UInt8 36) (h : ∀ i (hi : i < 36), dibits[i] < 4) :
    unpackDibits (packDibits dibits) = dibits := by
  apply Vector.ext
  intro i hi
  obtain ⟨q, k, hq, hk, rfl⟩ : ∃ q k, q < 9 ∧ k < 4 ∧ i = q * 4 + k :=
    ⟨i / 4, i % 4, by omega, by omega, (Nat.div_add_mod' i 4).symm⟩
  rw [unpackDibits_at _ q k hq hk]
  have hbyte (b : UInt8) : (b >>> UInt8.ofNat (6 - 2 * k)) &&& 0x03 = (byteToDibits b)[k] := by
    rcases (by omega : k = 0 ∨ k = 1 ∨ k = 2 ∨ k = 3) with rfl | rfl | rfl | rfl
    · rfl
    · rfl
    · rfl
    · show (b >>> 0) &&& 0x03 = b &&& 0x03
      rw [UInt8.shiftRight_zero]
  rw [hbyte]
  simp only [packDibits, Vector.getElem_ofFn, mask_dibit _ (h _ _)]
  simp only [byteToDibits_dibitsToByte _ _ _ _ (h _ _) (h _ _) (h _ _) (h _ _)]
  rcases (by omega : k = 0 ∨ k = 1 ∨ k = 2 ∨ k = 3) with rfl | rfl | rfl | rfl <;> rfl

theorem extractSyncSection_dibit (data : Bytes 33) (i k : Nat) (hi : i < 6) (hk : k < 4) :
    (byteToDibits (extractSyncSection data)[i])[k] = (burstToDibits data).getD (54 + i * 4 + k) 0 := by
  have hlt := burstToDibits_lt data
  have hbyte : (extractSyncSection data)[i] = dibitsToByte (burstToDibits data)[54 + i * 4]
      (burstToDibits data)[54 + i * 4 + 1] (burstToDibits data)[54 + i * 4 + 2]
      (burstToDibits data)[54 + i * 4 + 3] := by
    simp only [extractSyncSection, Vector.getElem_ofFn]
  rw [bytes_getD _ _ (by omega)]
  generalize burstToDibits data = dibits at *
  rw [hbyte, byteToDibits_dibitsToByte _ _ _ _ (hlt _ _) (hlt _ _) (hlt _ _) (hlt _ _)]
  rcases (by omega : k = 0 ∨ k = 1 ∨ k = 2 ∨ k = 3) with rfl | rfl | rfl | rfl
  · exact getElem_congr_idx (Nat.add_zero _).symm
  · rfl
  · rfl
  · rfl

theorem codewordsOf_dibits (dibits : Vector UInt8 132) (hlt : ∀ i (hi : i < 132), dibits[i] < 4) :
    ∃ cw1 cw2 cw3, codewordsOf dibits = #v[cw1, cw2, cw3] ∧
      (∀ i (hi : i < 36), (unpackDibits cw1)[i] = dibits.getD i 0) ∧
      (∀ i (hi : i < 36), (unpackDibits cw2)[i] = dibits.getD (if i < 18 then i + 36 else i + 60) 0) ∧
      ∀ i (hi : i < 36), (unpackDibits cw3)[i] = dibits.getD (i + 96) 0 := by
  refine ⟨_, _, _, rfl, ?_, ?_, ?_⟩
  · intro i hi
    rw [unpackDibits_packDibits _ fun i hi => by rw [Vector.getElem_ofFn]; exact hlt _ _]
    rw [Vector.getElem_ofFn, bytes_getD _ _ (by omega)]
  · intro i hi
    rw [unpackDibits_packDibits _ fun i hi => by rw [Vector.getElem_ofFn]; split <;> exact hlt _ _]
    rw [Vector.getElem_ofFn]
    split
    · rw [bytes_getD _ _ (by omega)]
    · rw [bytes_getD _ _ (by omega)]
  · intro i hi
    rw [unpackDibits_packDibits _ fun i hi => by rw [Vector.getElem_ofFn]; exact hlt _ _]
    rw [Vector.getElem_ofFn, bytes_getD _ _ (by omega)]

/-- The two halves of frame 2 go back on their own sides of the sync section. -/
theorem burstLayout_extract (data : Bytes 33) :
    burstLayout (extractAmbe data) (extractSyncSection data) = burstToDibits data := by
  obtain ⟨cw1, cw2, cw3, hcw, h1, h2, h3⟩ := codewordsOf_dibits _ (burstToDibits_lt data)
  have hsync := extractSyncSection_dibit data
  unfold extractAmbe
  rw [hcw]
  generalize extractSyncSection data = sync at hsync
  generalize burstToDibits data = dibits at *
  apply Vector.ext
  intro i hi
  rw [← bytes_getD dibits i hi]
  simp only [burstLayout, Vector.getElem_ofFn]
  split
  · exact h1 _ _
  split
  · refine (h2 _ _).trans (congrArg (dibits.getD · 0) ?_)
    rw [if_pos (by omega)]
    omega
  split
  · refine (hsync _ _ (by omega) (by omega)).trans (congrArg (dibits.getD · 0) ?_)
    show 54 + (i - 54) / 4 * 4 + (i - 54) % 4 = i
    omega
  split
  · refine (h2 _ _).trans (congrArg (dibits.getD · 0) ?_)
    rw [if_neg (by omega)]
    omega
  · refine (h3 _ _).trans (congrArg (dibits.getD · 0) ?_)
    omega

theorem assembleBurst_extract (data : Bytes 33) :
    assembleBurst (extractAmbe data) (extractSyncSection data) = data := by
  unfold assembleBurst
  rw [burstLayout_extract, dibitsToBytes_burstToDibits]

def burstEquiv : Vector AmbeFrame 3 × Bytes 6 ≃ Bytes 33 where
  toFun parts := assembleBurst parts.1 parts.2
  invFun data := (extractAmbe data, extractSyncSection data)
  left_inv parts := Prod.ext (extractAmbe_assembleBurst parts.1 parts.2)
    (extractSyncSection_assembleBurst parts.1 parts.2)
  right_inv data := assembleBurst_extract data

/-! ## Dibits and bits -/

def dibitOf (high low : Bool) : UInt8 := high.toUInt8 <<< 1 ||| low.toUInt8

theorem byteToDibits_bits (b : UInt8) (k : Nat) (hk : k < 4) :
    (byteToDibits b)[k] = dibitOf (msbBit b (2 * k)) (msbBit b (2 * k + 1)) := by
  have hall : ∀ n : Fin 256, ∀ k : Fin 4, (byteToDibits (.ofNat n)).get k =
      dibitOf (msbBit (.ofNat n) (2 * k.val)) (msbBit (.ofNat n) (2 * k.val + 1)) := by decide +kernel
  have hbyte := hall ⟨b.toNat, b.toNat_lt⟩ ⟨k, hk⟩
  rw [UInt8.ofNat_toNat] at hbyte
  exact hbyte

theorem packMsb_dibits (bits : Nat → Bool) :
    dibitsToByte (dibitOf (bits 0) (bits 1)) (dibitOf (bits 2) (bits 3)) (dibitOf (bits 4) (bits 5))
      (dibitOf (bits 6) (bits 7)) = packMsb bits := by
  have hall : ∀ b0 b1 b2 b3 b4 b5 b6 b7 : Bool,
      dibitsToByte (dibitOf b0 b1) (dibitOf b2 b3) (dibitOf b4 b5) (dibitOf b6 b7) =
        packMsb fun k => [b0, b1, b2, b3, b4, b5, b6, b7].getD k false := by decide +kernel
  rw [hall]
  apply packMsb_congr
  intro k hk
  rcases (by omega : k = 0 ∨ k = 1 ∨ k = 2 ∨ k = 3 ∨ k = 4 ∨ k = 5 ∨ k = 6 ∨ k = 7)
    with rfl | rfl | rfl | rfl | rfl | rfl | rfl | rfl <;> rfl

/-- Bit `p` of a burst on air. -/
def burstBit (data : Bytes 33) (p : Nat) : Bool := msbBit (data.getD (p / 8) 0) (p % 8)

theorem burstBit_at (data : Bytes 33) (q k : Nat) (hq : q < 33) (hk : k < 8) :
    burstBit data (q * 8 + k) = msbBit data[q] k := by
  have hdiv : (q * 8 + k) / 8 = q := by omega
  have hmod : (q * 8 + k) % 8 = k := by omega
  unfold burstBit
  rw [hdiv, hmod, bytes_getD data q hq]

theorem burstToDibits_bits (data : Bytes 33) (p : Nat) (hp : p < 132) :
    (burstToDibits data)[p] = dibitOf (burstBit data (2 * p)) (burstBit data (2 * p + 1)) := by
  obtain ⟨q, k, hq, hk, rfl⟩ : ∃ q k, q < 33 ∧ k < 4 ∧ p = q * 4 + k :=
    ⟨p / 4, p % 4, by omega, by omega, (Nat.div_add_mod' p 4).symm⟩
  have hhigh : 2 * (q * 4 + k) = q * 8 + 2 * k := by omega
  have hlow : 2 * (q * 4 + k) + 1 = q * 8 + (2 * k + 1) := by omega
  rw [burstToDibits_at _ q k hq hk, byteToDibits_bits _ k hk, hlow, hhigh, burstBit_at _ _ _ hq (by omega),
    burstBit_at _ _ _ hq (by omega)]

/-- What the dibits call the sync section is bits 108 to 155. -/
theorem extractSyncSection_bits (data : Bytes 33) (i : Nat) (hi : i < 6) :
    (extractSyncSection data)[i] = packMsb fun bit => burstBit data (108 + i * 8 + bit) := by
  rw [← packMsb_dibits]
  simp only [extractSyncSection, Vector.getElem_ofFn, burstToDibits_bits]
  congr 3 <;> omega

/-! ## Data bursts -/

theorem dataBurstBits_sync (interleaved : Bits 196) (slotType : Bits 20) (sync : Bytes 6) (i k : Nat) (hi : i < 6)
    (hk : k < 8) : (dataBurstBits interleaved slotType sync)[108 + i * 8 + k] = msbBit sync[i] k := by
  have hd : (108 + i * 8 + k - 108) / 8 = i := by omega
  have hm : (108 + i * 8 + k - 108) % 8 = k := by omega
  simp only [dataBurstBits, Vector.getElem_ofFn]
  rw [dif_neg (by omega), dif_neg (by omega), dif_pos (by omega)]
  simp only [hd, hm]
  rfl

theorem burstBit_buildDataBurst (lcBits : Bits 96) (dataType colorCode : UInt8) (sync : Bytes 6) (p : Nat)
    (hp : p < 264) :
    burstBit (buildDataBurst lcBits dataType colorCode sync) p =
      (dataBurstBits (bptcEncode lcBits) (encodeSlotType dataType colorCode) sync)[p] := by
  unfold burstBit
  rw [bytes_getD _ _ (by omega), buildDataBurst_bit _ _ _ _ p hp]

theorem extractSyncSection_buildDataBurst (lcBits : Bits 96) (dataType colorCode : UInt8) (sync : Bytes 6) :
    extractSyncSection (buildDataBurst lcBits dataType colorCode sync) = sync := by
  ext1 i hi
  rw [extractSyncSection_bits _ i hi, ← packMsb_msbBit sync[i]]
  apply packMsb_congr
  intro k hk
  rw [burstBit_buildDataBurst _ _ _ _ _ (by omega), dataBurstBits_sync _ _ _ _ _ hi hk]

theorem burst_assembly :
    (∀ codewords sync, extractAmbe (assembleBurst codewords sync) = codewords ∧
        extractSyncSection (assembleBurst codewords sync) = sync) ∧
      (∀ data, assembleBurst (extractAmbe data) (extractSyncSection data) = data) ∧
      Function.Bijective (fun parts : Vector AmbeFrame 3 × Bytes 6 => assembleBurst parts.1 parts.2) ∧
      ∀ lcBits dataType colorCode sync,
        extractSyncSection (buildDataBurst lcBits dataType colorCode sync) = sync ∧
          extractBurstInterleaved (buildDataBurst lcBits dataType colorCode sync) = bptcEncode lcBits := by
  refine ⟨?_, assembleBurst_extract, burstEquiv.bijective, ?_⟩
  · intro codewords sync
    exact ⟨extractAmbe_assembleBurst codewords sync, extractSyncSection_assembleBurst codewords sync⟩
  · intro lcBits dataType colorCode sync
    exact ⟨extractSyncSection_buildDataBurst lcBits dataType colorCode sync,
      extract_buildDataBurst lcBits dataType colorCode sync⟩

end DmrBridge
