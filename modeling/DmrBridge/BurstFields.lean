import DmrBridge.BurstAssembly
import DmrBridge.EmbeddedLc
import DmrBridge.Lib.LinearCode

/-!
# The slot type and the EMB of a burst

The two fields that a receiver reads first, and the decoders that `fec.rs` has for its tests. They
look a word up and correct nothing: what they make of a damaged word depends on how far apart the
words of the two tables are.
-/

namespace DmrBridge

open LinearCode

structure LookupDecodeError where
  deriving DecidableEq

theorem table_get {n : Nat} {table : Vector UInt16 n} {f : Nat → Nat}
    (h : table.toList.map UInt16.toNat = (List.range n).map f) (i : Fin n) : (table.get i).toNat = f i := by
  have hget : (table.toList.map UInt16.toNat)[i.val]? = ((List.range n).map f)[i.val]? := by rw [h]
  rw [List.getElem?_map, List.getElem?_map, List.getElem?_range i.isLt, Vector.getElem?_toList,
    Vector.getElem?_eq_getElem i.isLt] at hget
  exact Option.some.inj hget

theorem toNat_toUInt8_and_ff (p : UInt16) : (p &&& 0xFF).toUInt8.toNat = p.toNat % 2 ^ 8 := by
  rw [UInt16.toNat_toUInt8, UInt16.toNat_and]
  show (p.toNat &&& (2 ^ 8 - 1)) % 2 ^ 8 = p.toNat % 2 ^ 8
  rw [Nat.and_two_pow_sub_one_eq_mod, Nat.mod_mod]

theorem word_toNat (hi lo : UInt8) : (lo.toUInt16 ||| hi.toUInt16 <<< 8).toNat = hi.toNat <<< 8 ||| lo.toNat := by
  rw [UInt16.toNat_or, UInt16.toNat_shiftLeft, UInt8.toNat_toUInt16, UInt8.toNat_toUInt16, Nat.or_comm]
  have hfits : hi.toNat <<< 8 < 2 ^ 16 := by
    have := hi.toNat_lt
    omega
  exact congrArg (· ||| lo.toNat) (Nat.mod_eq_of_lt hfits)

/-! ## Golay(20,8) -/

/-- The parity as it was received; the low nibble of its high byte is not sent. -/
def receivedParity (bits : Bits 20) : UInt16 :=
  let lo := packMsb fun i => bits.getD (8 + i) false
  let hi := packMsb fun i => if i < 4 then bits.getD (16 + i) false else false
  lo.toUInt16 ||| hi.toUInt16 <<< 8

def golay208Decode (bits : Bits 20) : Except LookupDecodeError UInt8 :=
  let info := packMsb fun i => bits.getD i false
  if golay208Parity info = receivedParity bits then .ok info else .error {}

/-- What `encodeSlotType` sends for its eight info bits. -/
def slotTypeWord (info : UInt8) : Bits 20 :=
  let parity := golay208Parity info
  let lo := (parity &&& 0xFF).toUInt8
  let hi := ((parity >>> 8) &&& 0xFF).toUInt8
  .ofFn fun i =>
    if i.val < 8 then msbBit info i.val
    else if i.val < 16 then msbBit lo (i.val - 8)
    else msbBit hi (i.val - 16)

def slotTypeInfo (dataType colorCode : UInt8) : UInt8 := ((colorCode &&& 0x0F) <<< 4) ||| (dataType &&& 0x0F)

theorem encodeSlotType_eq (dataType colorCode : UInt8) :
    encodeSlotType dataType colorCode = slotTypeWord (slotTypeInfo dataType colorCode) := rfl

def golayRows : List Nat := [0xB08E, 0xE093, 0x70A9, 0x60DC, 0x7036, 0xD06C, 0x90D9, 0xA03D]

theorem golay208Parity_span (info : UInt8) : (golay208Parity info).toNat = span golayRows info.toNat := by
  have htable : golay2087Table.toList.map UInt16.toNat = (List.range 256).map (span golayRows) := by decide +kernel
  exact table_get htable ⟨info.toNat, index_u8 info⟩

/-- Bit `i` of a slot type: the data, then bits 7 to 0 and 15 to 12 of the parity. -/
def slotTypeBit (data parity : Nat) (i : Fin 20) : Bool :=
  if i.val < 8 then data.testBit (7 - i)
  else if i.val < 16 then parity.testBit (15 - i)
  else parity.testBit (31 - i)

theorem slotTypeWord_get (info : UInt8) :
    (slotTypeWord info).get = slotTypeBit info.toNat (span golayRows info.toNat) := by
  funext i
  show (slotTypeWord info)[i.val] = _
  unfold slotTypeWord slotTypeBit msbBit
  rw [Vector.getElem_ofFn, toNat_toUInt8_and_ff, toNat_toUInt8_and_ff, UInt16.toNat_shiftRight,
    golay208Parity_span]
  split
  · rfl
  rename_i hdata
  have hdata : 8 ≤ i.val := Nat.not_lt.mp hdata
  have hlt := i.isLt
  split
  · have hbit : 7 - (i.val - 8) = 15 - i := by omega
    rw [Nat.testBit_mod_two_pow, hbit, decide_eq_true (by omega), Bool.true_and]
  · rename_i hlow
    have hlow : 16 ≤ i.val := Nat.not_lt.mp hlow
    have hbit : 8 + (7 - (i.val - 16)) = 31 - i := by omega
    have hshift : (8 : UInt16).toNat % 16 = 8 := rfl
    rw [Nat.testBit_mod_two_pow, hshift, Nat.testBit_shiftRight, hbit, decide_eq_true (by omega), Bool.true_and]

/-- Any two slot types differ in eight bits at least. -/
theorem slotType_apart : Apart 8 8 fun d => slotTypeBit d (span golayRows d) := by
  apply apart_of_weight
  · intro a b i
    unfold slotTypeBit
    rw [span_xor, Nat.testBit_xor, Nat.testBit_xor, Nat.testBit_xor]
    split
    · rfl
    split <;> rfl
  · have hall : ∀ d < 256, d ≠ 0 → 8 ≤ hammingDist (slotTypeBit d (span golayRows d)) fun _ => false := by
      decide +kernel
    exact hall

theorem testBit_packMsb (bits : Nat → Bool) (j : Nat) :
    (packMsb bits).toNat.testBit j = if j < 8 then bits (7 - j) else false := by
  split
  · rename_i hj
    have hbit : 7 - (7 - j) = j := by omega
    rw [← msbBit_packMsb bits (7 - j) (by omega), msbBit, hbit]
  · rename_i hj
    exact Nat.testBit_lt_two_pow ((packMsb bits).toNat_lt.trans_le
      (Nat.pow_le_pow_right (by decide) (Nat.not_lt.mp hj)))

theorem receivedParity_testBit (bits : Bits 20) (j : Nat) :
    (receivedParity bits).toNat.testBit j =
      if j < 8 then bits.getD (15 - j) false
      else if 12 ≤ j ∧ j < 16 then bits.getD (31 - j) false
      else false := by
  unfold receivedParity
  rw [word_toNat, Nat.testBit_or, Nat.testBit_shiftLeft, testBit_packMsb, testBit_packMsb]
  by_cases hlow : j < 8
  · have hbit : 8 + (7 - j) = 15 - j := by omega
    rw [if_pos hlow, if_pos hlow, hbit, decide_eq_false (by omega), Bool.false_and, Bool.false_or]
  rw [if_neg hlow, if_neg hlow, decide_eq_true (by omega), Bool.true_and, Bool.or_false]
  by_cases hhigh : 12 ≤ j ∧ j < 16
  · have hbit : 16 + (7 - (j - 8)) = 31 - j := by omega
    rw [if_pos hhigh, if_pos (by omega), if_pos (by omega), hbit]
  · rw [if_neg hhigh]
    split
    · exact if_neg (by omega)
    · rfl

/-- The twenty bits are those of the data and the parity that the decoder reads from them. -/
theorem slotTypeBit_read (bits : Bits 20) :
    slotTypeBit (packMsb fun i => bits.getD i false).toNat (receivedParity bits).toNat = bits.get := by
  funext i
  have hlt := i.isLt
  show _ = bits[i.val]
  rw [← bits_getD bits i.val hlt]
  unfold slotTypeBit
  split
  · rename_i hdata
    rw [testBit_packMsb, if_pos (by omega)]
    congr 1
    omega
  split
  · rw [receivedParity_testBit, if_pos (by omega)]
    congr 1
    omega
  · rw [receivedParity_testBit, if_neg (by omega), if_pos (by omega)]
    congr 1
    omega

/-- What the decoder takes for a slot type is the word of what it returns. -/
theorem slotTypeWord_of_decode {bits : Bits 20} {info : UInt8} (h : golay208Decode bits = .ok info) :
    bits.get = (slotTypeWord info).get := by
  unfold golay208Decode at h
  dsimp only at h
  split at h
  · rename_i hparity
    cases h
    rw [slotTypeWord_get, ← golay208Parity_span, hparity, slotTypeBit_read]
  · cases h

/-- The nibble that is not sent is clear in every parity. -/
theorem receivedParity_sent (info : UInt8) : receivedParity (slotTypeWord info) = golay208Parity info := by
  have hclear : ∀ d < 256, ∀ j < 16, 8 ≤ j → j < 12 → (span golayRows d).testBit j = false := by decide +kernel
  have hword (i : Nat) (hi : i < 20) :
      (slotTypeWord info).getD i false = slotTypeBit info.toNat (span golayRows info.toNat) ⟨i, hi⟩ := by
    rw [bits_getD _ i hi, ← slotTypeWord_get]
    rfl
  apply UInt16.toNat_inj.mp
  apply Nat.eq_of_testBit_eq
  intro j
  rw [receivedParity_testBit]
  split
  · have hbit : 15 - (15 - j) = j := by omega
    rw [hword _ (by omega), slotTypeBit, if_neg (by dsimp only; omega), if_pos (by dsimp only; omega),
      golay208Parity_span, hbit]
  split
  · have hbit : 31 - (31 - j) = j := by omega
    rw [hword _ (by omega), slotTypeBit, if_neg (by dsimp only; omega), if_neg (by dsimp only; omega),
      golay208Parity_span, hbit]
  · by_cases hj : j < 16
    · rw [golay208Parity_span]
      exact (hclear info.toNat info.toNat_lt j hj (by omega) (by omega)).symm
    · exact (Nat.testBit_lt_two_pow
        ((golay208Parity info).toNat_lt.trans_le (Nat.pow_le_pow_right (by decide) (Nat.not_lt.mp hj)))).symm

theorem golay208Decode_sent (info : UInt8) : golay208Decode (slotTypeWord info) = .ok info := by
  have hinfo : packMsb (fun i => (slotTypeWord info).getD i false) = info := by
    rw [← packMsb_msbBit info]
    apply packMsb_congr
    intro bit hbit
    rw [packMsb_msbBit, bits_getD _ _ (by omega)]
    unfold slotTypeWord
    rw [Vector.getElem_ofFn, if_pos hbit]
  unfold golay208Decode
  rw [hinfo, receivedParity_sent]
  exact if_pos rfl

/-- The slot type of a burst: ten bits before the SYNC and ten after it. -/
def slotTypeOf (burst : Bytes 33) : Bits 20 :=
  .ofFn fun i => burstBit burst (if i.val < 10 then 98 + i.val else 146 + i.val)

theorem dataBurstBits_slotFirst (interleaved : Bits 196) (slotType : Bits 20) (sync : Bytes 6) (i : Nat) (hi : i < 10) :
    (dataBurstBits interleaved slotType sync)[98 + i] = slotType[i] := by
  have hpos : 98 + i - 98 = i := by omega
  simp only [dataBurstBits, Vector.getElem_ofFn, hpos]
  rw [dif_neg (by omega), dif_pos (by omega)]

theorem dataBurstBits_slotSecond (interleaved : Bits 196) (slotType : Bits 20) (sync : Bytes 6) (i : Nat)
    (hlow : 10 ≤ i) (hi : i < 20) : (dataBurstBits interleaved slotType sync)[146 + i] = slotType[i] := by
  have hpos : 146 + i - 146 = i := by omega
  simp only [dataBurstBits, Vector.getElem_ofFn, hpos]
  rw [dif_neg (by omega), dif_neg (by omega), dif_neg (by omega), dif_pos (by omega)]

theorem slotTypeOf_buildDataBurst (lcBits : Bits 96) (dataType colorCode : UInt8) (sync : Bytes 6) :
    slotTypeOf (buildDataBurst lcBits dataType colorCode sync) = slotTypeWord (slotTypeInfo dataType colorCode) := by
  rw [← encodeSlotType_eq]
  ext1 i hi
  unfold slotTypeOf
  rw [Vector.getElem_ofFn]
  by_cases hfirst : i < 10
  · rw [if_pos hfirst, burstBit_buildDataBurst _ _ _ _ _ (by omega), dataBurstBits_slotFirst _ _ _ i hfirst]
  · rw [if_neg hfirst, burstBit_buildDataBurst _ _ _ _ _ (by omega),
      dataBurstBits_slotSecond _ _ _ i (Nat.not_lt.mp hfirst) hi]

/-- A receiver that looks the slot type up never takes a burst for one of another color code or data type, with up to
seven of the twenty bits wrong. -/
theorem slotType_detects (lcBits : Bits 96) (dataType colorCode : UInt8) (sync : Bytes 6) :
    ∀ received : Bytes 33,
      hammingDist (slotTypeOf received).get (slotTypeOf (buildDataBurst lcBits dataType colorCode sync)).get ≤ 7 →
      golay208Decode (slotTypeOf received) =
        if slotTypeOf received = slotTypeOf (buildDataBurst lcBits dataType colorCode sync)
        then .ok (slotTypeInfo dataType colorCode) else .error {} := by
  intro received hnear
  rw [slotTypeOf_buildDataBurst] at hnear ⊢
  split
  · rename_i hsame
    rw [hsame, golay208Decode_sent]
  · rename_i hchanged
    cases hdecode : golay208Decode (slotTypeOf received) with
    | error e => rfl
    | ok info =>
      have hword := slotTypeWord_of_decode hdecode
      rw [hword, slotTypeWord_get, slotTypeWord_get] at hnear
      have hinfo : info.toNat = (slotTypeInfo dataType colorCode).toNat :=
        eq_of_near slotType_apart (slotTypeInfo dataType colorCode).toNat_lt info.toNat_lt (Nat.lt_succ_of_le hnear)
      rw [UInt8.toNat_inj.mp hinfo] at hword
      refine absurd ?_ hchanged
      ext1 i hi
      exact congrFun hword ⟨i, hi⟩

def sampleHeader : Bytes 33 := buildDataBurst (.replicate 96 false) 1 1 bsDataSync

/-- A captured header of color code 1, two bits of its slot type wrong before the SYNC and five after it. -/
def damagedHeader : Bytes 33 :=
  #v[0x01, 0x8B, 0x0A, 0xEC, 0x12, 0x34, 0x09, 0x30, 0x72, 0xC0, 0x05, 0x00, 0x74, 0x6D, 0xFF, 0x57, 0xD7,
    0x5D, 0xF5, 0xD1, 0xB2, 0x74, 0x14, 0xF8, 0x32, 0xA0, 0x0A, 0xC0, 0x08, 0xC1, 0x2F, 0x82, 0xB3]

theorem slotType_detects_damagedHeader :
    hammingDist (slotTypeOf damagedHeader).get (slotTypeOf sampleHeader).get ≤ 7 ∧
      golay208Decode (slotTypeOf damagedHeader) =
        if slotTypeOf damagedHeader = slotTypeOf sampleHeader then .ok (slotTypeInfo 1 1) else .error {} := by
  have hnear : hammingDist (slotTypeOf damagedHeader).get (slotTypeOf sampleHeader).get ≤ 7 := by
    rw [sampleHeader, slotTypeOf_buildDataBurst]
    decide +kernel
  exact ⟨hnear, slotType_detects (.replicate 96 false) 1 1 bsDataSync damagedHeader hnear⟩

/-! ## QR(16,7,6) -/

/-- The scan of the table, from zero. -/
def qr167Decode (codeword : UInt16) : Except LookupDecodeError UInt8 :=
  match (List.range 128).find? fun info => qr167Encode (UInt8.ofNat info) = codeword with
  | some info => .ok (UInt8.ofNat info)
  | none => .error {}

def qrRows : List Nat := [0x0273, 0x04E5, 0x09C9, 0x11E2, 0x21B7, 0x417B, 0x82F6]

theorem qr167Encode_span (info : UInt8) (h : info.toNat < 128) : (qr167Encode info).toNat = span qrRows info.toNat := by
  have htable : qr1676Table.toList.map UInt16.toNat = (List.range 128).map (span qrRows) := by decide +kernel
  have hindex : (info &&& 0x7F).toNat = info.toNat := by
    rw [UInt8.toNat_and]
    show info.toNat &&& (2 ^ 7 - 1) = info.toNat
    rw [Nat.and_two_pow_sub_one_eq_mod, Nat.mod_eq_of_lt h]
  have hget := table_get htable ⟨(info &&& 0x7F).toNat, index_u7 info⟩
  rwa [show (Fin.mk (info &&& 0x7F).toNat (index_u7 info)).val = info.toNat from hindex] at hget

def wordBits (word : Nat) (i : Fin 16) : Bool := word.testBit i

/-- Any two EMBs differ in four bits at least: the rows of 32 and 64 leave the code short of the six of its name. -/
theorem emb_apart : Apart 7 4 fun d => wordBits (span qrRows d) := by
  apply apart_of_weight
  · intro a b i
    unfold wordBits
    rw [span_xor, Nat.testBit_xor]
  · have hall : ∀ d < 128, d ≠ 0 → 4 ≤ hammingDist (wordBits (span qrRows d)) fun _ => false := by decide +kernel
    exact hall

/-- Two data whose EMBs differ in three bits at most are the same. -/
theorem emb_unique {a b : UInt8} (ha : a.toNat < 128) (hb : b.toNat < 128)
    (hnear : hammingDist (wordBits (qr167Encode b).toNat) (wordBits (qr167Encode a).toNat) ≤ 3) : b = a := by
  rw [qr167Encode_span a ha, qr167Encode_span b hb] at hnear
  exact UInt8.toNat_inj.mp (eq_of_near emb_apart ha hb (Nat.lt_succ_of_le hnear))

theorem qr167Decode_sent (info : UInt8) (h : info.toNat < 128) : qr167Decode (qr167Encode info) = .ok info := by
  unfold qr167Decode
  cases hfind : (List.range 128).find? fun d => qr167Encode (UInt8.ofNat d) = qr167Encode info with
  | none =>
    have hself := List.find?_eq_none.mp hfind info.toNat (List.mem_range.mpr h)
    simp at hself
  | some d =>
    have hd := List.mem_range.mp (List.mem_of_find?_eq_some hfind)
    have hsame : qr167Encode (UInt8.ofNat d) = qr167Encode info := by simpa using List.find?_some hfind
    have hmod : (UInt8.ofNat d).toNat = d := by
      rw [UInt8.toNat_ofNat']
      omega
    have hinfo : UInt8.ofNat d = info := by
      apply emb_unique h (hmod.trans_lt hd)
      rw [hsame, hammingDist_self]
      exact Nat.zero_le 3
    exact congrArg Except.ok hinfo

theorem encode_of_qr167Decode {codeword : UInt16} {info : UInt8} (h : qr167Decode codeword = .ok info) :
    info.toNat < 128 ∧ codeword = qr167Encode info := by
  unfold qr167Decode at h
  split at h
  · rename_i d hfind
    cases h
    have hd := List.mem_range.mp (List.mem_of_find?_eq_some hfind)
    have hsame : qr167Encode (UInt8.ofNat d) = codeword := by simpa using List.find?_some hfind
    refine ⟨?_, hsame.symm⟩
    rw [UInt8.toNat_ofNat']
    omega
  · cases h

/-- The codeword around the embedded LC of a sync section. -/
def embOf (sync : Bytes 6) : UInt16 := sync[0].toUInt16 <<< 8 ||| sync[5].toUInt16

def embInfo (colorCode lcss : UInt8) : UInt8 := ((colorCode &&& 0x0F) <<< 3) ||| (lcss &&& 0x03)

theorem embInfo_lt (colorCode lcss : UInt8) : (embInfo colorCode lcss).toNat < 128 := by
  unfold embInfo
  rw [UInt8.toNat_or, UInt8.toNat_shiftLeft, UInt8.toNat_and, UInt8.toNat_and]
  have hcode : colorCode.toNat &&& (0x0F : UInt8).toNat ≤ 15 := Nat.and_le_right
  have hlcss : lcss.toNat &&& (0x03 : UInt8).toNat ≤ 3 := Nat.and_le_right
  have hshift : (3 : UInt8).toNat % 8 = 3 := rfl
  apply Nat.or_lt_two_pow (n := 7)
  · rw [hshift]
    omega
  · omega

/-- Another color code and another LCSS. -/
theorem embInfo_flip (colorCode lcss : UInt8) :
    embInfo (colorCode ^^^ 4) (lcss ^^^ 1) = embInfo colorCode lcss ^^^ 33 := by
  apply UInt8.toBitVec_inj.mp
  unfold embInfo
  simp only [UInt8.toBitVec_or, UInt8.toBitVec_xor, UInt8.toBitVec_and, UInt8.toBitVec_shiftLeft]
  ext i hi
  rcases (by omega : i = 0 ∨ i = 1 ∨ i = 2 ∨ i = 3 ∨ i = 4 ∨ i = 5 ∨ i = 6 ∨ i = 7)
    with rfl | rfl | rfl | rfl | rfl | rfl | rfl | rfl <;> simp

theorem embOf_buildEmbSection (colorCode lcss : UInt8) (embeddedLc : Bytes 4) :
    embOf (buildEmbSection colorCode lcss embeddedLc) = qr167Encode (embInfo colorCode lcss) := by
  have hor : embOf (buildEmbSection colorCode lcss embeddedLc) =
      ((qr167Encode (embInfo colorCode lcss)) &&& 0xFF).toUInt8.toUInt16 |||
        ((qr167Encode (embInfo colorCode lcss)) >>> 8).toUInt8.toUInt16 <<< 8 := UInt16.or_comm _ _
  generalize qr167Encode (embInfo colorCode lcss) = codeword at hor ⊢
  apply UInt16.toNat_inj.mp
  rw [hor, word_toNat, toNat_toUInt8_and_ff, UInt16.toNat_toUInt8, UInt16.toNat_shiftRight,
    ← Nat.shiftLeft_add_eq_or_of_lt (Nat.mod_lt _ (by decide))]
  have hlt := codeword.toNat_lt
  have hshift : (8 : UInt16).toNat % 16 = 8 := rfl
  rw [hshift]
  omega

/-- A receiver that looks the EMB up never takes it for one of another color code or LCSS with up to three of its
sixteen bits wrong. With four it may: the same four turn any EMB into another. -/
theorem emb_detects (colorCode lcss : UInt8) (embeddedLc : Bytes 4) :
    (∀ received : Bytes 6,
      hammingDist (wordBits (embOf received).toNat)
        (wordBits (embOf (buildEmbSection colorCode lcss embeddedLc)).toNat) ≤ 3 →
      qr167Decode (embOf received) =
        if embOf received = embOf (buildEmbSection colorCode lcss embeddedLc)
        then .ok (embInfo colorCode lcss) else .error {}) ∧
    qr167Decode (embOf (buildEmbSection colorCode lcss embeddedLc) ^^^ 0x4308) =
      .ok (embInfo (colorCode ^^^ 4) (lcss ^^^ 1)) := by
  have hlt := embInfo_lt colorCode lcss
  rw [embOf_buildEmbSection]
  refine ⟨fun received hnear => ?_, ?_⟩
  · split
    · rename_i hsame
      rw [hsame, qr167Decode_sent _ hlt]
    · rename_i hchanged
      cases hdecode : qr167Decode (embOf received) with
      | error e => rfl
      | ok info =>
        obtain ⟨hinfo, hword⟩ := encode_of_qr167Decode hdecode
        rw [hword] at hnear
        rw [emb_unique hlt hinfo hnear] at hword
        exact absurd hword hchanged
  · rw [embInfo_flip]
    have hflip : (embInfo colorCode lcss ^^^ 33).toNat < 128 := by
      rw [UInt8.toNat_xor]
      exact Nat.xor_lt_two_pow (n := 7) hlt (by decide)
    have hword : qr167Encode (embInfo colorCode lcss) ^^^ 0x4308 = qr167Encode (embInfo colorCode lcss ^^^ 33) := by
      apply UInt16.toNat_inj.mp
      rw [qr167Encode_span _ hflip, UInt16.toNat_xor, qr167Encode_span _ hlt, UInt8.toNat_xor, span_xor]
      rfl
    rw [hword, qr167Decode_sent _ hflip]

end DmrBridge
