import DmrBridge.Dmrd

/-!
# Voice burst assembly

132 dibits: frame 1, the first half of frame 2, 24 dibits of SYNC or EMB, the second half of
frame 2, frame 3.
-/

namespace DmrBridge

def byteToDibits (byte : UInt8) : Vector UInt8 4 :=
  #v[(byte >>> 6) &&& 0x03, (byte >>> 4) &&& 0x03, (byte >>> 2) &&& 0x03, byte &&& 0x03]

def burstToDibits (data : Bytes 33) : Vector UInt8 132 :=
  .ofFn fun i => (byteToDibits data[i.val / 4])[i.val % 4]

def dibitsToByte (a b c d : UInt8) : UInt8 := (a <<< 6) ||| (b <<< 4) ||| (c <<< 2) ||| d

def dibitsToBytes (dibits : Vector UInt8 132) : Bytes 33 :=
  .ofFn fun i =>
    dibitsToByte dibits[i.val * 4] dibits[i.val * 4 + 1] dibits[i.val * 4 + 2] dibits[i.val * 4 + 3]

/-- Masks each dibit, so that a value over 3 cannot reach its neighbours. -/
def packDibits (dibits : Vector UInt8 36) : AmbeFrame :=
  .ofFn fun i =>
    dibitsToByte (dibits[i.val * 4] &&& 0x03) (dibits[i.val * 4 + 1] &&& 0x03)
      (dibits[i.val * 4 + 2] &&& 0x03) (dibits[i.val * 4 + 3] &&& 0x03)

def unpackDibits (frame : AmbeFrame) : Vector UInt8 36 :=
  .ofFn fun i => (frame[i.val / 4] >>> UInt8.ofNat (6 - 2 * (i.val % 4))) &&& 0x03

/-- The three frames in 132 dibits; frame 2 sits on both sides of the sync section. -/
def codewordsOf (dibits : Vector UInt8 132) : Vector AmbeFrame 3 :=
  let cw1 : Vector UInt8 36 := .ofFn fun i => dibits[i.val]
  let cw2 : Vector UInt8 36 :=
    .ofFn fun i => if i.val < 18 then dibits[i.val + 36] else dibits[i.val + 60]
  let cw3 : Vector UInt8 36 := .ofFn fun i => dibits[i.val + 96]
  #v[packDibits cw1, packDibits cw2, packDibits cw3]

def extractAmbe (data : Bytes 33) : Vector AmbeFrame 3 := codewordsOf (burstToDibits data)

def burstLayout (codewords : Vector AmbeFrame 3) (sync : Bytes 6) : Vector UInt8 132 :=
  .ofFn fun i =>
    if _ : i.val < 36 then (unpackDibits codewords[0])[i.val]
    else if _ : i.val < 54 then (unpackDibits codewords[1])[i.val - 36]
    else if _ : i.val < 78 then (byteToDibits sync[(i.val - 54) / 4])[(i.val - 54) % 4]
    else if _ : i.val < 96 then (unpackDibits codewords[1])[i.val - 60]
    else (unpackDibits codewords[2])[i.val - 96]

/-- The six bytes in dibits 54 to 77. -/
def extractSyncSection (data : Bytes 33) : Bytes 6 :=
  let dibits := burstToDibits data
  .ofFn fun i =>
    dibitsToByte dibits[54 + i.val * 4] dibits[54 + i.val * 4 + 1] dibits[54 + i.val * 4 + 2] dibits[54 + i.val * 4 + 3]

def assembleBurst (codewords : Vector AmbeFrame 3) (sync : Bytes 6) : Bytes 33 :=
  dibitsToBytes (burstLayout codewords sync)

/-! ## One byte -/

theorem dibit_le (b : UInt8) : b &&& 0x03 < 4 := by
  have h := Nat.and_le_right (n := b.toNat) (m := 3)
  rw [UInt8.lt_iff_toNat_lt, UInt8.toNat_and]
  exact Nat.lt_succ_of_le h

set_option maxRecDepth 4000 in
theorem byteToDibits_dibitsToByte (a b c d : UInt8) (ha : a < 4) (hb : b < 4) (hc : c < 4) (hd : d < 4) :
    byteToDibits (dibitsToByte a b c d) = #v[a, b, c, d] := by
  have hall : ∀ a b c d : Fin 4,
      byteToDibits (dibitsToByte (.ofNat a) (.ofNat b) (.ofNat c) (.ofNat d)) =
        #v[.ofNat a, .ofNat b, .ofNat c, .ofNat d] := by decide
  simpa using hall ⟨a.toNat, UInt8.lt_iff_toNat_lt.mp ha⟩ ⟨b.toNat, UInt8.lt_iff_toNat_lt.mp hb⟩
    ⟨c.toNat, UInt8.lt_iff_toNat_lt.mp hc⟩ ⟨d.toNat, UInt8.lt_iff_toNat_lt.mp hd⟩

theorem dibitsToByte_dibits (b : UInt8) :
    dibitsToByte ((b >>> 6) &&& 0x03) ((b >>> 4) &&& 0x03) ((b >>> 2) &&& 0x03) (b &&& 0x03) = b := by
  have hall : ∀ n : Fin 256, dibitsToByte ((UInt8.ofNat n >>> 6) &&& 0x03)
      ((UInt8.ofNat n >>> 4) &&& 0x03) ((UInt8.ofNat n >>> 2) &&& 0x03) (UInt8.ofNat n &&& 0x03) =
        UInt8.ofNat n := by decide +kernel
  simpa using hall ⟨b.toNat, b.toNat_lt⟩

/-! ## Whole bursts -/

theorem burstToDibits_at (data : Bytes 33) (q k : Nat) (hq : q < 33) (hk : k < 4) :
    (burstToDibits data)[q * 4 + k] = (byteToDibits data[q])[k] := by
  have hd : (q * 4 + k) / 4 = q := by omega
  have hm : (q * 4 + k) % 4 = k := by omega
  simp only [burstToDibits, Vector.getElem_ofFn, hd, hm]

theorem burstToDibits_dibitsToBytes (dibits : Vector UInt8 132)
    (h : ∀ i (hi : i < 132), dibits[i] < 4) : burstToDibits (dibitsToBytes dibits) = dibits := by
  apply Vector.ext
  intro i hi
  obtain ⟨q, k, hq, hk, rfl⟩ : ∃ q k, q < 33 ∧ k < 4 ∧ i = q * 4 + k :=
    ⟨i / 4, i % 4, by omega, by omega, (Nat.div_add_mod' i 4).symm⟩
  rw [burstToDibits_at _ q k hq hk]
  simp only [dibitsToBytes, Vector.getElem_ofFn]
  simp only [byteToDibits_dibitsToByte _ _ _ _ (h _ _) (h _ _) (h _ _) (h _ _)]
  rcases (by omega : k = 0 ∨ k = 1 ∨ k = 2 ∨ k = 3) with rfl | rfl | rfl | rfl <;> rfl

theorem unpackDibits_lt (f : AmbeFrame) (i : Nat) (h : i < 36) : (unpackDibits f)[i] < 4 := by
  simp only [unpackDibits, Vector.getElem_ofFn]
  exact dibit_le _

theorem byteToDibits_lt (b : UInt8) (i : Nat) (h : i < 4) : (byteToDibits b)[i] < 4 := by
  rcases (by omega : i = 0 ∨ i = 1 ∨ i = 2 ∨ i = 3) with rfl | rfl | rfl | rfl
  all_goals exact dibit_le _

theorem mask_dibit (d : UInt8) (h : d < 4) : d &&& 0x03 = d := by
  have hall : ∀ n : Fin 4, UInt8.ofNat n &&& 0x03 = UInt8.ofNat n := by decide
  simpa using hall ⟨d.toNat, UInt8.lt_iff_toNat_lt.mp h⟩

theorem unpackDibits_at (f : AmbeFrame) (i k : Nat) (hi : i < 9) (hk : k < 4) :
    (unpackDibits f)[i * 4 + k] = (f[i] >>> UInt8.ofNat (6 - 2 * k)) &&& 0x03 := by
  simp only [unpackDibits, Vector.getElem_ofFn]
  have hd : (i * 4 + k) / 4 = i := by omega
  have hm : (i * 4 + k) % 4 = k := by omega
  simp only [hd, hm]

@[simp]
theorem packDibits_unpackDibits (f : AmbeFrame) : packDibits (unpackDibits f) = f := by
  ext1 i hi
  have h0 := unpackDibits_at f i 0 hi (by omega)
  simp only [Nat.add_zero] at h0
  simp only [packDibits, Vector.getElem_ofFn, mask_dibit _ (unpackDibits_lt f _ _), h0,
    unpackDibits_at f i 1 hi (by omega), unpackDibits_at f i 2 hi (by omega),
    unpackDibits_at f i 3 hi (by omega)]
  -- The last shift is by zero.
  have hz : f[i] >>> UInt8.ofNat (6 - 2 * 3) = f[i] := UInt8.shiftRight_zero
  rw [hz]
  exact dibitsToByte_dibits f[i]

theorem burstLayout_lt (codewords : Vector AmbeFrame 3) (sync : Bytes 6) (i : Nat) (hi : i < 132) :
    (burstLayout codewords sync)[i] < 4 := by
  simp only [burstLayout, Vector.getElem_ofFn]
  split
  · exact unpackDibits_lt _ _ _
  split
  · exact unpackDibits_lt _ _ _
  split
  · exact byteToDibits_lt _ _ _
  split
  · exact unpackDibits_lt _ _ _
  · exact unpackDibits_lt _ _ _

theorem codewordsOf_burstLayout (codewords : Vector AmbeFrame 3) (sync : Bytes 6) :
    codewordsOf (burstLayout codewords sync) = codewords := by
  have h1 : (Vector.ofFn fun i : Fin 36 => (burstLayout codewords sync)[i.val]) = unpackDibits codewords[0] := by
    ext1 i hi
    simp [burstLayout]
  have h2 : (Vector.ofFn fun i : Fin 36 => if i.val < 18 then (burstLayout codewords sync)[i.val + 36]
      else (burstLayout codewords sync)[i.val + 60]) = unpackDibits codewords[1] := by
    ext1 i hi
    simp only [Vector.getElem_ofFn, burstLayout]
    split
    · rw [dif_neg (by omega), dif_pos (by omega)]
      exact getElem_congr_idx (c := unpackDibits codewords[1]) (by omega)
    · rw [dif_neg (by omega), dif_neg (by omega), dif_neg (by omega), dif_pos (by omega)]
      exact getElem_congr_idx (c := unpackDibits codewords[1]) (by omega)
  have h3 : (Vector.ofFn fun i : Fin 36 => (burstLayout codewords sync)[i.val + 96]) = unpackDibits codewords[2] := by
    ext1 i hi
    simp only [Vector.getElem_ofFn, burstLayout]
    rw [dif_neg (by omega), dif_neg (by omega), dif_neg (by omega), dif_neg (by omega)]
    exact getElem_congr_idx (c := unpackDibits codewords[2]) (by omega)
  simp only [codewordsOf, h1, h2, h3, packDibits_unpackDibits]
  ext1 k hk
  rcases (by omega : k = 0 ∨ k = 1 ∨ k = 2) with rfl | rfl | rfl <;> rfl

theorem extractAmbe_assembleBurst (codewords : Vector AmbeFrame 3) (sync : Bytes 6) :
    extractAmbe (assembleBurst codewords sync) = codewords := by
  rw [extractAmbe, assembleBurst, burstToDibits_dibitsToBytes _ (burstLayout_lt codewords sync)]
  exact codewordsOf_burstLayout codewords sync

theorem burstLayout_sync (codewords : Vector AmbeFrame 3) (sync : Bytes 6) (i k : Nat) (hi : i < 6) (hk : k < 4) :
    (burstLayout codewords sync)[54 + i * 4 + k] = (byteToDibits sync[i])[k] := by
  have hd : (54 + i * 4 + k - 54) / 4 = i := by omega
  have hm : (54 + i * 4 + k - 54) % 4 = k := by omega
  simp only [burstLayout, Vector.getElem_ofFn]
  rw [dif_neg (by omega), dif_neg (by omega), dif_pos (by omega)]
  simp only [hd, hm]

theorem extractSyncSection_assembleBurst (codewords : Vector AmbeFrame 3) (sync : Bytes 6) :
    extractSyncSection (assembleBurst codewords sync) = sync := by
  unfold extractSyncSection assembleBurst
  rw [burstToDibits_dibitsToBytes _ (burstLayout_lt codewords sync)]
  ext1 i hi
  have h0 := burstLayout_sync codewords sync i 0 hi (by omega)
  simp only [Nat.add_zero] at h0
  simp only [Vector.getElem_ofFn, h0, burstLayout_sync codewords sync i 1 hi (by omega),
    burstLayout_sync codewords sync i 2 hi (by omega), burstLayout_sync codewords sync i 3 hi (by omega)]
  exact dibitsToByte_dibits sync[i]

end DmrBridge
