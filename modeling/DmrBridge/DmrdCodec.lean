import DmrBridge.Dmrd
import DmrBridge.Lib.Endian

/-!
# The DMRD codec

Which bytes `Dmrd.parse` takes, and that writing what it read gives them back.
-/

open Endian

namespace DmrBridge

/-- The packets that `parse` takes. What follows the 53 bytes does not matter. -/
structure Dmrd.Accepted (buf : List UInt8) : Prop where
  length : packetSize ≤ buf.length
  magic : buf.take 4 = dmrdMagic
  srcId : beAt buf 5 3 ≠ 0
  repeaterId : beAt buf 11 4 ≠ 0
  frameType : (buf.getD 15 0 &&& flagFrameTypeMask) >>> flagFrameTypeShift ≠ 3

/-! ## Fields -/

theorem beAt_toNat (buf : List UInt8) (off n : Nat) (hn : n ≤ 4) :
    (beAt buf off n).toNat = ofBeBytes ((buf.drop off).take n) := by
  have hlt := ofBeBytes_lt ((buf.drop off).take n)
  have hlen : ((buf.drop off).take n).length ≤ 4 := by simp; omega
  have hpow : 256 ^ ((buf.drop off).take n).length ≤ 256 ^ 4 := Nat.pow_le_pow_right (by decide) hlen
  rw [beAt, UInt32.toNat_ofNat', Nat.mod_eq_of_lt (by omega)]

theorem beBytes_beAt (buf : List UInt8) (off n : Nat) (hn : n ≤ 4) (h : off + n ≤ buf.length) :
    beBytes n (beAt buf off n).toNat = (buf.drop off).take n := by
  have hlen : ((buf.drop off).take n).length = n := by simp; omega
  have hround := beBytes_ofBeBytes ((buf.drop off).take n)
  rw [hlen] at hround
  rw [beAt_toNat buf off n hn, hround]

theorem beAt_le_max24Bit (buf : List UInt8) (off : Nat) : beAt buf off 3 ≤ max24Bit := by
  have hlt := ofBeBytes_lt ((buf.drop off).take 3)
  have hpow : 256 ^ ((buf.drop off).take 3).length ≤ 256 ^ 3 := Nat.pow_le_pow_right (by decide) (by simp)
  rw [UInt32.le_iff_toNat_le, beAt_toNat buf off 3 (by decide)]
  simp only [max24Bit, UInt32.reduceToNat]
  omega

theorem srcId_tryFrom_isOk (buf : List UInt8) :
    (∃ s, SubscriberId.tryFrom (beAt buf 5 3) = .ok s) ↔ beAt buf 5 3 ≠ 0 := by
  have hle := beAt_le_max24Bit buf 5
  by_cases h : beAt buf 5 3 = 0
  · simp [SubscriberId.tryFrom, h]
  · simp [SubscriberId.tryFrom, h, UInt32.not_lt.mpr hle]

theorem repeaterId_tryFrom_isOk (buf : List UInt8) :
    (∃ r, DmrId.tryFrom (beAt buf 11 4) = .ok r) ↔ beAt buf 11 4 ≠ 0 := by
  by_cases h : beAt buf 11 4 = 0
  · simp [DmrId.tryFrom, h]
  · simp [DmrId.tryFrom, h]

theorem frameTypeBits_cases (n : Fin 256) :
    let bits := (UInt8.ofNat n &&& flagFrameTypeMask) >>> flagFrameTypeShift
    bits = 0 ∨ bits = 1 ∨ bits = 2 ∨ bits = 3 := by
  revert n
  decide +kernel

theorem parseFrameType_isSome (flags : UInt8) :
    (∃ t, parseFrameType flags = some t) ↔ (flags &&& flagFrameTypeMask) >>> flagFrameTypeShift ≠ 3 := by
  have hbits := frameTypeBits_cases ⟨flags.toNat, flags.toNat_lt⟩
  simp only [UInt8.ofNat_toNat] at hbits
  unfold parseFrameType
  rcases hbits with h | h | h | h <;> simp [h]

theorem flags_rebuilt (n : Fin 256) :
    let flags := UInt8.ofNat n
    (flags &&& flagFrameTypeMask) >>> flagFrameTypeShift ≠ 3 →
    (if flags &&& flagSlot ≠ 0 then flagSlot else 0) |||
      (if flags &&& flagCallType ≠ 0 then flagCallType else 0) |||
      ((flags &&& flagFrameTypeMask) >>> flagFrameTypeShift) <<< flagFrameTypeShift |||
      (flags &&& flagDtypeVseqMask &&& flagDtypeVseqMask) = flags := by
  revert n
  decide +kernel

theorem bits_of_parseFrameType {flags : UInt8} {t : FrameType} (h : parseFrameType flags = some t) :
    t.bits = (flags &&& flagFrameTypeMask) >>> flagFrameTypeShift := by
  unfold parseFrameType at h
  split at h
  · rename_i hbits
    cases h
    exact hbits.symm
  split at h
  · rename_i hbits
    cases h
    exact hbits.symm
  split at h
  · rename_i hbits
    cases h
    exact hbits.symm
  · cases h

/-! ## What `parse` returns -/

/-- The fields of an accepted packet are the bytes at their offsets. -/
structure Dmrd.ReadFrom (d : Dmrd) (buf : List UInt8) : Prop where
  seq : d.seq = buf.getD 4 0
  srcId : d.srcId.asU32 = beAt buf 5 3
  dstId : d.dstId = beAt buf 8 3
  repeaterId : d.repeaterId.asU32 = beAt buf 11 4
  slot : d.slot = if buf.getD 15 0 &&& flagSlot ≠ 0 then .two else .one
  callType : d.callType = if buf.getD 15 0 &&& flagCallType ≠ 0 then .unit else .group
  frameType : parseFrameType (buf.getD 15 0) = some d.frameType
  dtypeVseq : d.dtypeVseq = buf.getD 15 0 &&& flagDtypeVseqMask
  streamId : d.streamId = beAt buf 16 4
  dmrData : d.dmrData.toList = (buf.drop dmrdHeaderSize).take dmrDataSize

theorem subscriberId_asU32_of_tryFrom {v : UInt32} {s : SubscriberId} (h : SubscriberId.tryFrom v = .ok s) :
    s.asU32 = v := by
  unfold SubscriberId.tryFrom at h
  split at h
  · cases h
  split at h
  · cases h
  · cases h
    rfl

theorem dmrId_asU32_of_tryFrom {v : UInt32} {r : DmrId} (h : DmrId.tryFrom v = .ok r) : r.asU32 = v := by
  unfold DmrId.tryFrom at h
  split at h
  · cases h
  · cases h
    rfl

theorem parse_ok {buf : List UInt8} {d : Dmrd} (h : Dmrd.parse buf = .ok d) :
    Dmrd.Accepted buf ∧ d.ReadFrom buf := by
  unfold Dmrd.parse at h
  split at h
  · cases h
  rename_i hlen
  split at h
  · cases h
  rename_i hmagic
  rcases hsrc : SubscriberId.tryFrom (beAt buf 5 3) with e | srcId
  · rw [hsrc] at h
    cases h
  rcases hrep : DmrId.tryFrom (beAt buf 11 4) with e | repeaterId
  · rw [hsrc, hrep] at h
    cases h
  rcases hft : parseFrameType (buf.getD 15 0) with _ | frameType
  · rw [hsrc, hrep] at h
    simp only [hft] at h
    cases h
  rw [hsrc, hrep] at h
  simp only [hft] at h
  cases h
  constructor
  · exact {
      length := Nat.not_lt.mp hlen
      magic := not_not.mp hmagic
      srcId := (srcId_tryFrom_isOk buf).mp ⟨_, hsrc⟩
      repeaterId := (repeaterId_tryFrom_isOk buf).mp ⟨_, hrep⟩
      frameType := (parseFrameType_isSome _).mp ⟨_, hft⟩ }
  · exact {
      seq := rfl, dstId := rfl, slot := rfl, callType := rfl, dtypeVseq := rfl, streamId := rfl, dmrData := rfl
      srcId := subscriberId_asU32_of_tryFrom hsrc
      repeaterId := dmrId_asU32_of_tryFrom hrep
      frameType := hft }

theorem parse_isOk_of_accepted {buf : List UInt8} (h : Dmrd.Accepted buf) : ∃ d, Dmrd.parse buf = .ok d := by
  obtain ⟨srcId, hsrc⟩ := (srcId_tryFrom_isOk buf).mpr h.srcId
  obtain ⟨repeaterId, hrep⟩ := (repeaterId_tryFrom_isOk buf).mpr h.repeaterId
  obtain ⟨frameType, hft⟩ := (parseFrameType_isSome (buf.getD 15 0)).mpr h.frameType
  unfold Dmrd.parse
  rw [dif_neg (Nat.not_lt.mpr h.length), if_neg (not_not.mpr h.magic), hsrc, hrep]
  simp only [hft]
  exact ⟨_, rfl⟩

/-! ## Writing it back -/

theorem Dmrd.ReadFrom.flags {d : Dmrd} {buf : List UInt8} (h : d.ReadFrom buf)
    (hft : (buf.getD 15 0 &&& flagFrameTypeMask) >>> flagFrameTypeShift ≠ 3) : d.flags = buf.getD 15 0 := by
  have hbyte := flags_rebuilt ⟨(buf.getD 15 0).toNat, (buf.getD 15 0).toNat_lt⟩
  simp only [UInt8.ofNat_toNat] at hbyte
  have hslot : (if d.slot = .two then flagSlot else 0) = if buf.getD 15 0 &&& flagSlot ≠ 0 then flagSlot else 0 := by
    rw [h.slot]
    split <;> simp
  have hcall : (if d.callType = .unit then flagCallType else 0) =
      if buf.getD 15 0 &&& flagCallType ≠ 0 then flagCallType else 0 := by
    rw [h.callType]
    split <;> simp
  rw [Dmrd.flags, hslot, hcall, bits_of_parseFrameType h.frameType, h.dtypeVseq, hbyte hft]

/-- The 53 bytes in the order `serialize` writes them. -/
theorem take_packet (buf : List UInt8) (h : packetSize ≤ buf.length) :
    buf.take packetSize = buf.take 4 ++ [buf.getD 4 0] ++ (buf.drop 5).take 3 ++ (buf.drop 8).take 3 ++
      (buf.drop 11).take 4 ++ [buf.getD 15 0] ++ (buf.drop 16).take 4 ++
      (buf.drop dmrdHeaderSize).take dmrDataSize := by
  have hone (i : Nat) (hi : i < 53) : [buf.getD i 0] = (buf.drop i).take 1 := by
    have hlt : i < buf.length := Nat.lt_of_lt_of_le hi h
    rw [List.take_one, List.head?_drop, List.getD_eq_getElem?_getD, List.getElem?_eq_getElem hlt]
    rfl
  rw [hone 4 (by decide), hone 15 (by decide)]
  simp only [← List.take_add]

theorem serialize_parse {buf : List UInt8} {d : Dmrd} (h : Dmrd.parse buf = .ok d) :
    ∃ pkt, d.serialize = some pkt ∧ pkt.toList = buf.take packetSize := by
  obtain ⟨hacc, hread⟩ := parse_ok h
  have hlen : packetSize ≤ buf.length := hacc.length
  have hdst : d.dstId ≤ max24Bit := by
    rw [hread.dstId]
    exact beAt_le_max24Bit buf 8
  obtain ⟨pkt, hpkt⟩ := serialize_isSome d hdst
  obtain ⟨-, hwire⟩ := serialize_eq_some hpkt
  refine ⟨pkt, hpkt, ?_⟩
  have hthree (v : UInt32) : (beBytes 4 v.toNat).drop 1 = beBytes 3 v.toNat := rfl
  rw [hwire, take_packet buf hlen, Dmrd.wire, hthree, hthree, hacc.magic, hread.seq, hread.srcId, hread.dstId,
    hread.repeaterId, hread.flags hacc.frameType, hread.streamId, hread.dmrData]
  rw [beBytes_beAt buf 5 3 (by decide) (Nat.le_trans (by decide) hlen),
    beBytes_beAt buf 8 3 (by decide) (Nat.le_trans (by decide) hlen),
    beBytes_beAt buf 11 4 (by decide) (Nat.le_trans (by decide) hlen),
    beBytes_beAt buf 16 4 (by decide) (Nat.le_trans (by decide) hlen)]

/-! ## Both directions -/

theorem dmrd_codec :
    (∀ d : Dmrd, d.dstId ≤ max24Bit → d.dtypeVseq < 16 →
      ∃ pkt, d.serialize = some pkt ∧ ∀ rest, Dmrd.parse (pkt.toList ++ rest) = .ok d) ∧
    (∀ buf, (∃ d, Dmrd.parse buf = .ok d) ↔ Dmrd.Accepted buf) ∧
    ∀ buf d, Dmrd.parse buf = .ok d → ∃ pkt, d.serialize = some pkt ∧ pkt.toList = buf.take packetSize := by
  refine ⟨?_, ?_, fun buf d => serialize_parse⟩
  · intro d hdst hv
    obtain ⟨pkt, hpkt⟩ := serialize_isSome d hdst
    exact ⟨pkt, hpkt, fun rest => parse_serialize d pkt rest hpkt hv⟩
  · intro buf
    constructor
    · rintro ⟨d, hd⟩
      exact (parse_ok hd).1
    · exact parse_isOk_of_accepted

def sampleDmrd : Dmrd :=
  { seq := 7, srcId := ⟨2041057, by decide, by decide⟩, dstId := 91, repeaterId := ⟨204105701, by decide⟩
    slot := .two, callType := .unit, frameType := .voice, dtypeVseq := 5, streamId := 42
    dmrData := .replicate 33 0xA5 }

theorem dmrd_codec_sample :
    ∃ pkt, sampleDmrd.serialize = some pkt ∧ ∀ rest, Dmrd.parse (pkt.toList ++ rest) = .ok sampleDmrd :=
  dmrd_codec.1 sampleDmrd (by decide) (by decide)

end DmrBridge
