import DmrBridge.Lib.Endian
import DmrBridge.Lib.Records
import DmrBridge.Types

/-!
# DV3000 packets

`dv3000_wire`: a start byte, a 16-bit payload length, a packet type and the payload.
-/

open Endian

namespace DmrBridge

namespace Dv3000

def startByte : UInt8 := 0x61
abbrev headerSize : Nat := 4
def maxPacket : Nat := 512

def typeControl : UInt8 := 0x00
def typeAmbe : UInt8 := 0x01
def typeAudio : UInt8 := 0x02

def controlReset : UInt8 := 0x33
def controlReady : UInt8 := 0x39
def controlRatep : UInt8 := 0x0A
def controlGain : UInt8 := 0x4B
def controlProdid : UInt8 := 0x30

def ambeBits : UInt8 := 72
def fieldSpeechData : UInt8 := 0x00
def fieldCmode : UInt8 := 0x02
def fieldChannelData : UInt8 := 0x01

def ratepDmr : List UInt8 := [0x04, 0x31, 0x07, 0x54, 0x24, 0x00, 0x00, 0x00, 0x00, 0x00, 0x6F, 0x48]

inductive Packet where
  | ambe (frame : AmbeFrame)
  | ambeBits (bits : UInt8) (data : List UInt8)
  | audio (pcm : PcmFrame)
  | control (fieldId : UInt8) (data : List UInt8)
  deriving DecidableEq

def debugList {α : Type} [ToString α] (items : List α) : String :=
  "[" ++ ", ".intercalate (items.map toString) ++ "]"

/-- The text of `{:?}`, which error messages quote. -/
def Packet.debug : Packet → String
  | .ambe frame => "Ambe(" ++ debugList frame.toList ++ ")"
  | .ambeBits bits data =>
    "AmbeBits \x7b bits: " ++ toString bits ++ ", data: " ++ debugList data ++ " \x7d"
  | .audio pcm => "Audio(" ++ debugList pcm.toList ++ ")"
  | .control fieldId data =>
    "Control \x7b field_id: " ++ toString fieldId ++ ", data: " ++ debugList data ++ " \x7d"

/-! ## Parsing -/

/-- `div_ceil(8)` -/
def dataBytes (bits : UInt8) : Nat := (bits.toNat + 7) / 8

/-- Reads what the bit count says and ignores the rest of the payload. -/
def parseAmbe (payload : List UInt8) : Except ParseError Packet :=
  if payload.length < 2 then .error (.tooShort payload.length 2)
  else if payload.getD 0 0 ≠ fieldChannelData then .error (.badFieldId fieldChannelData (payload.getD 0 0))
  else
    let bits := payload.getD 1 0
    if payload.length < 2 + dataBytes bits then .error (.tooShort payload.length (2 + dataBytes bits))
    else
      let data := (payload.drop 2).take (dataBytes bits)
      if bits = ambeBits then .ok (.ambe (.ofFn fun i => data.getD i.val 0)) else .ok (.ambeBits bits data)

/-- `i16::from_be_bytes` -/
def sampleAt (payload : List UInt8) (off : Nat) : Int16 :=
  (UInt16.ofNat (ofBeBytes ((payload.drop off).take 2))).toInt16

def parseAudio (payload : List UInt8) : Except ParseError Packet :=
  if payload.length < 2 + 320 then .error (.tooShort payload.length (2 + 320))
  else if payload.getD 0 0 ≠ fieldSpeechData then .error (.badFieldId fieldSpeechData (payload.getD 0 0))
  else if payload.getD 1 0 ≠ 160 then .error (.badSampleCount 160 (payload.getD 1 0))
  else .ok (.audio (.ofFn fun i => sampleAt payload (2 + i.val * 2)))

def parseControl : List UInt8 → Except ParseError Packet
  | [] => .error .emptyControl
  | fieldId :: data => .ok (.control fieldId data)

def parsePayload (packetType : UInt8) (payload : List UInt8) : Except ParseError Packet :=
  if packetType = typeAmbe then parseAmbe payload
  else if packetType = typeAudio then parseAudio payload
  else if packetType = typeControl then parseControl payload
  else .error (.unknownType packetType)

/-- The packet at the front of `buf` and the number of bytes it takes. -/
def parse (buf : List UInt8) : Except ParseError (Packet × Nat) :=
  if buf.length < headerSize then .error (.tooShort buf.length headerSize)
  else if buf.getD 0 0 ≠ startByte then .error (.badStartByte (buf.getD 0 0))
  else
    let totalLen := headerSize + ofBeBytes ((buf.drop 1).take 2)
    if buf.length < totalLen then .error (.incomplete buf.length totalLen)
    else (parsePayload (buf.getD 3 0) ((buf.take totalLen).drop headerSize)).map (·, totalLen)

/-! ## Building -/

def frame (packetType : UInt8) (payload : List UInt8) : List UInt8 :=
  startByte :: beBytes 2 payload.length ++ packetType :: payload

def sampleBytes (sample : Int16) : List UInt8 := beBytes 2 sample.toUInt16.toNat

def buildAudio (pcm : PcmFrame) : List UInt8 :=
  frame typeAudio ([fieldSpeechData, 160] ++ pcm.toList.flatMap sampleBytes ++ [fieldCmode, 0, 0])

def buildAmbe (ambe : AmbeFrame) : List UInt8 := frame typeAmbe ([fieldChannelData, ambeBits] ++ ambe.toList)

/-- Zeros for channel data and the `LOST_FRAME` bit in a trailing CMODE field. -/
def buildAmbeLostFrame : List UInt8 :=
  frame typeAmbe ([fieldChannelData, ambeBits] ++ List.replicate 9 0 ++ [fieldCmode, 0x00, 0x04])

def buildReset : List UInt8 := frame typeControl [controlReset]
def buildRatepCustom (rcws : List UInt8) : List UInt8 := frame typeControl (controlRatep :: rcws)
def buildRatepDmr : List UInt8 := buildRatepCustom ratepDmr
def gainClamp (db : Int8) : Int8 := max (-90) (min 90 db)

def buildGain (inDb outDb : Int8) : List UInt8 :=
  frame typeControl [controlGain, (gainClamp inDb).toUInt8, (gainClamp outDb).toUInt8]

def buildProdid : List UInt8 := frame typeControl [controlProdid]
def buildProdidResponse (payload : List UInt8) : List UInt8 := frame typeControl (controlProdid :: payload)
def buildReady : List UInt8 := frame typeControl [controlReady]
def buildControlAck (fieldId result : UInt8) : List UInt8 := frame typeControl [fieldId, result]

def isReady : Packet → Bool
  | .control fieldId _ => fieldId = controlReady
  | _ => false

def isRatepAck : Packet → Bool
  | .control fieldId data => fieldId = controlRatep && data.head? = some 0
  | _ => false

def isGainAck : Packet → Bool
  | .control fieldId data => fieldId = controlGain && data.head? = some 0
  | _ => false

/-! ## Round trips -/

theorem parse_frame (packetType : UInt8) (payload rest : List UInt8) (h : payload.length < 65536) :
    parse (frame packetType payload ++ rest) =
      (parsePayload packetType payload).map (·, headerSize + payload.length) := by
  obtain ⟨hi, lo, hlen⟩ : ∃ hi lo, beBytes 2 payload.length = [hi, lo] := ⟨_, _, rfl⟩
  have hvalue : ofBeBytes [hi, lo] = payload.length := by
    rw [← hlen, ofBeBytes_beBytes, Nat.mod_eq_of_lt (by simpa using h)]
  have hbuf : frame packetType payload ++ rest = startByte :: hi :: lo :: packetType :: (payload ++ rest) := by
    simp [frame, hlen]
  rw [hbuf, parse]
  simp only [List.length_cons, List.length_append, List.getD_cons_zero, List.getD_cons_succ, List.drop_succ_cons,
    List.drop_zero, List.take_succ_cons, List.take_zero, hvalue]
  rw [if_neg (by simp [headerSize]), if_neg (by simp), if_neg (by simp only [headerSize]; omega)]
  rw [show headerSize + payload.length = payload.length + 1 + 1 + 1 + 1 by simp only [headerSize]; omega]
  simp [headerSize]

theorem parse_frame_self (packetType : UInt8) (payload : List UInt8) (h : payload.length < 65536) :
    parse (frame packetType payload) =
      (parsePayload packetType payload).map (·, headerSize + payload.length) := by
  simpa using parse_frame packetType payload [] h

theorem parse_frame_ok {packetType : UInt8} {payload : List UInt8} {packet : Packet} (h : payload.length < 65536)
    (hp : parsePayload packetType payload = .ok packet) :
    ∃ n, parse (frame packetType payload) = .ok (packet, n) :=
  ⟨headerSize + payload.length, by rw [parse_frame_self _ _ h, hp]; rfl⟩

theorem length_frame (packetType : UInt8) (payload : List UInt8) :
    (frame packetType payload).length = headerSize + payload.length := by
  simp [frame, headerSize]
  omega

theorem sampleAt_sampleBytes (sample : Int16) : (UInt16.ofNat (ofBeBytes (sampleBytes sample))).toInt16 = sample := by
  rw [sampleBytes, ofBeBytes_beBytes, Nat.mod_eq_of_lt (by simpa using sample.toUInt16.toNat_lt), UInt16.ofNat_toNat]
  rfl

theorem length_sampleBytes (sample : Int16) : (sampleBytes sample).length = 2 := length_beBytes 2 _

theorem length_buildAudio (pcm : PcmFrame) : (buildAudio pcm).length = 329 := by
  simp only [buildAudio, length_frame, List.length_append, Records.length_flatMap length_sampleBytes,
    Vector.length_toList]
  rfl

theorem length_buildAmbe (ambe : AmbeFrame) : (buildAmbe ambe).length = 15 := by
  simp only [buildAmbe, length_frame, List.length_append, Vector.length_toList]
  rfl

theorem parsePayload_audio (pcm : PcmFrame) :
    parsePayload typeAudio ([fieldSpeechData, 160] ++ pcm.toList.flatMap sampleBytes ++ [fieldCmode, 0, 0]) =
      .ok (.audio pcm) := by
  have hlen : (pcm.toList.flatMap sampleBytes).length = 320 := by
    rw [Records.length_flatMap length_sampleBytes]
    simp
  have hsamples : (Vector.ofFn fun i : Fin 160 =>
      sampleAt ([fieldSpeechData, 160] ++ pcm.toList.flatMap sampleBytes ++ [fieldCmode, 0, 0]) (2 + i.val * 2)) =
        pcm := by
    ext1 i hi
    rw [Vector.getElem_ofFn, sampleAt, Nat.add_comm 2]
    simp only [List.cons_append, List.nil_append, List.drop_succ_cons]
    rw [Records.take_drop_flatMap length_sampleBytes _ _ (by simpa using hi), sampleAt_sampleBytes]
    simp
  rw [parsePayload, if_neg (by decide), if_pos rfl, parseAudio, hsamples]
  rw [if_neg (by simp only [List.length_append, hlen]; decide), if_neg (by simp), if_neg (by simp)]

theorem parse_buildAudio (pcm : PcmFrame) : ∃ n, parse (buildAudio pcm) = .ok (.audio pcm, n) := by
  have hlen := Records.length_flatMap length_sampleBytes pcm.toList
  refine parse_frame_ok ?_ (parsePayload_audio pcm)
  simp only [List.length_append, hlen, Vector.length_toList]
  decide

theorem parseAmbe_frame (ambe : AmbeFrame) (rest : List UInt8) :
    parseAmbe ([fieldChannelData, ambeBits] ++ ambe.toList ++ rest) = .ok (.ambe ambe) := by
  have hdata : (ambe.toList ++ rest).take 9 = ambe.toList := by
    rw [List.take_append_of_le_length (by simp), List.take_of_length_le (by simp)]
  have hbits : dataBytes ambeBits = 9 := by decide
  rw [parseAmbe, if_neg (by simp), if_neg (by simp)]
  simp only [List.cons_append, List.nil_append, List.getD_cons_succ, List.getD_cons_zero, hbits,
    List.drop_succ_cons, List.drop_zero, hdata]
  rw [if_neg (by simp), if_pos trivial]
  congr 2
  ext1 i hi
  simp

theorem parse_buildAmbe (ambe : AmbeFrame) : ∃ n, parse (buildAmbe ambe) = .ok (.ambe ambe, n) := by
  apply parse_frame_ok (by simp)
  rw [parsePayload, if_pos rfl]
  simpa using parseAmbe_frame ambe []

/-- The trailing CMODE field is lost: a lost-frame packet reads as a frame of zeros. -/
theorem parse_buildAmbeLostFrame : ∃ n, parse buildAmbeLostFrame = .ok (.ambe (.replicate 9 0), n) := by
  apply parse_frame_ok (by simp)
  rw [parsePayload, if_pos rfl]
  exact parseAmbe_frame (.replicate 9 0) [fieldCmode, 0x00, 0x04]

theorem parse_control (fieldId : UInt8) (data : List UInt8) (h : data.length < 65535) :
    ∃ n, parse (frame typeControl (fieldId :: data)) = .ok (.control fieldId data, n) := by
  apply parse_frame_ok (by simp only [List.length_cons]; omega)
  rw [parsePayload, if_neg (by decide), if_neg (by decide), if_pos rfl]
  rfl

end Dv3000

end DmrBridge
