import DmrBridge.Lib.Endian
import DmrBridge.Types

/-! # Homebrew DMRD packets -/

open Endian

namespace DmrBridge

def dmrdMagic : List UInt8 := [0x44, 0x4D, 0x52, 0x44]
abbrev dmrdHeaderSize : Nat := 20
abbrev dmrDataSize : Nat := 33
abbrev packetSize : Nat := dmrdHeaderSize + dmrDataSize

/-- `[u8; PACKET_SIZE]`, what the outbound queues carry -/
abbrev DmrdPacket := Bytes 53

def flagSlot : UInt8 := 0x80
def flagCallType : UInt8 := 0x40
def flagFrameTypeMask : UInt8 := 0x30
def flagFrameTypeShift : UInt8 := 4
def flagDtypeVseqMask : UInt8 := 0x0F

inductive CallType where
  | group
  | unit
  deriving DecidableEq, Repr

inductive FrameType where
  | voice
  | voiceSync
  | dataSync
  deriving DecidableEq, Repr

inductive DmrdError where
  | tooShort (have_ : Nat)
  | badMagic (m : List UInt8)
  | reservedFrameType
  | invalidSrcId (e : InvalidValue)
  | invalidRepeaterId (e : InvalidValue)
  deriving DecidableEq

structure Dmrd where
  seq : UInt8
  srcId : SubscriberId
  dstId : UInt32
  repeaterId : DmrId
  slot : Slot
  callType : CallType
  frameType : FrameType
  dtypeVseq : UInt8
  streamId : UInt32
  dmrData : Bytes 33
  deriving DecidableEq

/-- `none` is the assertion: an id over 24 bits would name another subscriber. -/
def idTo24Be (id : UInt32) : Option (List UInt8) :=
  if id ≤ max24Bit then some ((beBytes 4 id.toNat).drop 1) else none

def FrameType.bits : FrameType → UInt8
  | .voice => 0
  | .voiceSync => 1
  | .dataSync => 2

def Dmrd.flags (d : Dmrd) : UInt8 :=
  (if d.slot = .two then flagSlot else 0) |||
  (if d.callType = .unit then flagCallType else 0) |||
  (d.frameType.bits <<< flagFrameTypeShift) |||
  (d.dtypeVseq &&& flagDtypeVseqMask)

def Dmrd.wire (d : Dmrd) (dst : List UInt8) : List UInt8 :=
  dmrdMagic ++ [d.seq] ++ (beBytes 4 d.srcId.asU32.toNat).drop 1 ++ dst ++
    beBytes 4 d.repeaterId.asU32.toNat ++ [d.flags] ++ beBytes 4 d.streamId.toNat ++ d.dmrData.toList

theorem length_wire (d : Dmrd) (dst : List UInt8) (h : dst.length = 3) :
    (d.wire dst).length = packetSize := by
  simp only [Dmrd.wire, dmrdMagic, List.length_append, List.length_drop, length_beBytes, h,
    List.length_cons, List.length_nil, Vector.length_toList]

theorem idTo24Be_eq (id : UInt32) (h : id ≤ max24Bit) :
    idTo24Be id = some ((beBytes 4 id.toNat).drop 1) := if_pos h

theorem length_idTo24Be {id : UInt32} {dst : List UInt8} (h : idTo24Be id = some dst) :
    dst.length = 3 := by
  unfold idTo24Be at h
  split at h
  · cases h; simp
  · cases h

def Dmrd.serialize (d : Dmrd) : Option DmrdPacket :=
  match h : idTo24Be d.dstId with
  | some dst => some ⟨⟨d.wire dst⟩, length_wire d dst (length_idTo24Be h)⟩
  | none => none

/-- `u32::from_be_bytes` on the bytes from `off` to `off + n` -/
def beAt (buf : List UInt8) (off n : Nat) : UInt32 := UInt32.ofNat (ofBeBytes ((buf.drop off).take n))

def parseFrameType (flags : UInt8) : Option FrameType :=
  if (flags &&& flagFrameTypeMask) >>> flagFrameTypeShift = 0 then some .voice
  else if (flags &&& flagFrameTypeMask) >>> flagFrameTypeShift = 1 then some .voiceSync
  else if (flags &&& flagFrameTypeMask) >>> flagFrameTypeShift = 2 then some .dataSync
  else none

def Dmrd.parse (buf : List UInt8) : Except DmrdError Dmrd :=
  if h : buf.length < packetSize then .error (.tooShort buf.length)
  else if buf.take 4 ≠ dmrdMagic then .error (.badMagic (buf.take 4))
  else do
    let srcId ← (SubscriberId.tryFrom (beAt buf 5 3)).mapError .invalidSrcId
    let repeaterId ← (DmrId.tryFrom (beAt buf 11 4)).mapError .invalidRepeaterId
    let flags := buf.getD 15 0
    match parseFrameType flags with
    | none => .error .reservedFrameType
    | some frameType =>
      .ok {
        seq := buf.getD 4 0
        srcId, repeaterId, frameType
        dstId := beAt buf 8 3
        slot := if flags &&& flagSlot ≠ 0 then .two else .one
        callType := if flags &&& flagCallType ≠ 0 then .unit else .group
        dtypeVseq := flags &&& flagDtypeVseqMask
        streamId := beAt buf 16 4
        dmrData := ⟨⟨(buf.drop dmrdHeaderSize).take dmrDataSize⟩, by
          simp [packetSize, dmrdHeaderSize, dmrDataSize] at h ⊢; omega⟩ }

/-! ## Round trip -/

theorem ofBeBytes_drop_one (v : UInt32) (h : v ≤ max24Bit) :
    UInt32.ofNat (ofBeBytes ((beBytes 4 v.toNat).drop 1)) = v := by
  have hlt : v.toNat < 256 ^ 3 := by
    have := UInt32.le_iff_toNat_le.mp h
    simp [max24Bit] at this
    omega
  rw [show (beBytes 4 v.toNat).drop 1 = beBytes 3 v.toNat from rfl, ofBeBytes_beBytes,
    Nat.mod_eq_of_lt hlt, UInt32.ofNat_toNat]

theorem ofBeBytes_u32 (v : UInt32) : UInt32.ofNat (ofBeBytes (beBytes 4 v.toNat)) = v := by
  rw [ofBeBytes_beBytes, Nat.mod_eq_of_lt (by simpa using v.toNat_lt), UInt32.ofNat_toNat]

theorem flag_fields (s c : Bool) (t : Fin 3) (v : Fin 16) :
    let fl : UInt8 := (if s then flagSlot else 0) ||| (if c then flagCallType else 0) |||
      (UInt8.ofNat t <<< flagFrameTypeShift) ||| (UInt8.ofNat v &&& flagDtypeVseqMask)
    (fl &&& flagFrameTypeMask) >>> flagFrameTypeShift = UInt8.ofNat t ∧
      decide (fl &&& flagSlot ≠ 0) = s ∧ decide (fl &&& flagCallType ≠ 0) = c ∧
      fl &&& flagDtypeVseqMask = UInt8.ofNat v := by
  revert s c t v
  decide

theorem flags_eq (d : Dmrd) (h : d.dtypeVseq < 16) :
    ∃ (t : Fin 3) (v : Fin 16), d.frameType.bits = UInt8.ofNat t ∧ d.dtypeVseq = UInt8.ofNat v ∧
      d.flags = (if decide (d.slot = .two) then flagSlot else 0) |||
        (if decide (d.callType = .unit) then flagCallType else 0) |||
        (UInt8.ofNat t <<< flagFrameTypeShift) ||| (UInt8.ofNat v &&& flagDtypeVseqMask) := by
  have hv : d.dtypeVseq.toNat < 16 := UInt8.lt_iff_toNat_lt.mp h
  have ht : ∃ t : Fin 3, d.frameType.bits = UInt8.ofNat t := by
    cases d.frameType
    · exact ⟨0, rfl⟩
    · exact ⟨1, rfl⟩
    · exact ⟨2, rfl⟩
  obtain ⟨t, ht⟩ := ht
  refine ⟨t, ⟨d.dtypeVseq.toNat, hv⟩, ht, by simp, ?_⟩
  simp [Dmrd.flags, ht]

theorem parseFrameType_bits (flags : UInt8) (t : FrameType)
    (h : (flags &&& flagFrameTypeMask) >>> flagFrameTypeShift = t.bits) : parseFrameType flags = some t := by
  unfold parseFrameType
  rw [h]
  cases t <;> rfl

theorem flags_fields (d : Dmrd) (h : d.dtypeVseq < 16) :
    parseFrameType d.flags = some d.frameType ∧
      (if d.flags &&& flagSlot ≠ 0 then Slot.two else .one) = d.slot ∧
      (if d.flags &&& flagCallType ≠ 0 then CallType.unit else .group) = d.callType ∧
      d.flags &&& flagDtypeVseqMask = d.dtypeVseq := by
  obtain ⟨t, v, ht, hv, hflags⟩ := flags_eq d h
  obtain ⟨h1, h2, h3, h4⟩ := flag_fields (d.slot = .two) (d.callType = .unit) t v
  rw [← hflags] at h1 h2 h3 h4
  refine ⟨parseFrameType_bits _ _ (by rw [h1, ht]), ?_, ?_, by rw [h4, hv]⟩
  · rw [decide_eq_decide] at h2
    cases hs : d.slot <;> simp_all
  · rw [decide_eq_decide] at h3
    cases hc : d.callType <;> simp_all

theorem serialize_eq_some {d : Dmrd} {pkt : DmrdPacket} (h : d.serialize = some pkt) :
    d.dstId ≤ max24Bit ∧ pkt.toList = d.wire ((beBytes 4 d.dstId.toNat).drop 1) := by
  unfold Dmrd.serialize at h
  split at h
  · rename_i dst hdst
    cases h
    unfold idTo24Be at hdst
    split at hdst
    · rename_i hle
      cases hdst
      exact ⟨hle, rfl⟩
    · cases hdst
  · cases h

/-- The assertion on `dst_id` is the only way `serialize` fails. -/
theorem serialize_isSome (d : Dmrd) (h : d.dstId ≤ max24Bit) : ∃ pkt, d.serialize = some pkt := by
  unfold Dmrd.serialize
  split
  · exact ⟨_, rfl⟩
  · rename_i hnone
    rw [idTo24Be_eq _ h] at hnone
    cases hnone

theorem wire_fields (d : Dmrd) (dst rest : List UInt8) (h : dst.length = 3) :
    let buf := d.wire dst ++ rest
    buf.take 4 = dmrdMagic ∧ buf.getD 4 0 = d.seq ∧
      beAt buf 5 3 = UInt32.ofNat (ofBeBytes ((beBytes 4 d.srcId.asU32.toNat).drop 1)) ∧
      beAt buf 8 3 = UInt32.ofNat (ofBeBytes dst) ∧
      beAt buf 11 4 = UInt32.ofNat (ofBeBytes (beBytes 4 d.repeaterId.asU32.toNat)) ∧
      buf.getD 15 0 = d.flags ∧
      beAt buf 16 4 = UInt32.ofNat (ofBeBytes (beBytes 4 d.streamId.toNat)) ∧
      (buf.drop dmrdHeaderSize).take dmrDataSize = d.dmrData.toList := by
  obtain ⟨a, b, c, rfl⟩ : ∃ a b c, dst = [a, b, c] := by
    match dst, h with
    | [a, b, c], _ => exact ⟨a, b, c, rfl⟩
  refine ⟨rfl, rfl, rfl, rfl, rfl, rfl, rfl, ?_⟩
  change (d.dmrData.toList ++ rest).take dmrDataSize = d.dmrData.toList
  rw [List.take_append_of_le_length (by simp), List.take_of_length_le (by simp)]

theorem parse_serialize (d : Dmrd) (pkt : DmrdPacket) (rest : List UInt8)
    (hs : d.serialize = some pkt) (hv : d.dtypeVseq < 16) :
    Dmrd.parse (pkt.toList ++ rest) = .ok d := by
  obtain ⟨hdst, hwire⟩ := serialize_eq_some hs
  obtain ⟨hmagic, hseq, hsrc, hdst', hrep, hfl, hsid, hdata⟩ :=
    wire_fields d ((beBytes 4 d.dstId.toNat).drop 1) rest (by simp)
  obtain ⟨hft, hslot, hcall, hvseq⟩ := flags_fields d hv
  rw [← hwire] at hmagic hseq hsrc hdst' hrep hfl hsid hdata
  rw [ofBeBytes_drop_one _ d.srcId.range] at hsrc
  rw [ofBeBytes_drop_one _ hdst] at hdst'
  rw [ofBeBytes_u32] at hrep hsid
  have hlen : ¬ (pkt.toList ++ rest).length < packetSize := by
    rw [List.length_append, Vector.length_toList]
    exact Nat.not_lt.mpr (Nat.le_add_right 53 _)
  unfold Dmrd.parse
  rw [dif_neg hlen, if_neg (not_not.mpr hmagic), hsrc, hrep, hfl]
  have hvec : ∀ hn, (⟨⟨((pkt.toList ++ rest).drop dmrdHeaderSize).take dmrDataSize⟩, hn⟩ : Bytes 33) =
      d.dmrData := fun _ => Vector.toList_inj.mp hdata
  simp only [subscriberId_tryFrom_asU32, dmrId_tryFrom_asU32, Except.mapError, hft, hslot, hcall, hvseq,
    hseq, hdst', hsid, hvec]
  rfl

/-- What a receiver makes of a packet of the queues. -/
def dmrdOf (pkt : DmrdPacket) : Option Dmrd := (Dmrd.parse pkt.toList).toOption

theorem dmrdOf_serialize {d : Dmrd} {pkt : DmrdPacket} (hs : d.serialize = some pkt)
    (hv : d.dtypeVseq < 16) : dmrdOf pkt = some d := by
  have h := parse_serialize d pkt [] hs hv
  rw [List.append_nil] at h
  rw [dmrdOf, h]
  rfl

end DmrBridge
