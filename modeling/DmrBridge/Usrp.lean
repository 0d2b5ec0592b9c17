import DmrBridge.Lib.Endian
import DmrBridge.Types

/-!
# USRP packets

`usrp_wire`: the UDP framing between the bridge and its FM peer.
-/

open Endian

namespace DmrBridge

namespace Usrp

def magic : List UInt8 := [0x55, 0x53, 0x52, 0x50]
abbrev headerSize : Nat := 32
abbrev packetSize : Nat := headerSize + 320
def recvSlack : Nat := 64

inductive UsrpError where
  | tooShort (len : Nat)
  | badMagic (m : List UInt8)
  | unknownFrameType (v : UInt32)
  | ambiguousLength (len header packet : Nat)
  deriving DecidableEq

inductive FrameType where
  | voice
  | dtmf
  | text
  deriving DecidableEq

def FrameType.fromU32 (v : UInt32) : Except UsrpError FrameType :=
  match v.toNat with
  | 0 => .ok .voice
  | 1 => .ok .dtmf
  | 2 => .ok .text
  | _ => .error (.unknownFrameType v)

structure Frame where
  seq : UInt32
  keyup : Bool
  talkgroup : UInt32
  frameType : FrameType
  /-- `none` for a packet that is a header only. -/
  audio : Option PcmFrame
  text : Option (List UInt8)
  deriving DecidableEq

inductive ByteOrder where
  | little
  | big
  deriving DecidableEq

/-- `i16::from_ne_bytes` -/
def sampleOfBytes : ByteOrder → UInt8 → UInt8 → Int16
  | .little, b0, b1 => (UInt16.ofNat (ofBeBytes [b1, b0])).toInt16
  | .big, b0, b1 => (UInt16.ofNat (ofBeBytes [b0, b1])).toInt16

def readSample (host : ByteOrder) (b0 b1 : UInt8) (byteSwap : Bool) : Int16 :=
  if byteSwap then sampleOfBytes host b1 b0 else sampleOfBytes host b0 b1

/-- `u32::from_be_bytes` of the four bytes at `off` -/
def u32At (buf : List UInt8) (off : Nat) : UInt32 := UInt32.ofNat (ofBeBytes ((buf.drop off).take 4))

def readAudio (host : ByteOrder) (buf : List UInt8) (byteSwap : Bool) : PcmFrame :=
  .ofFn fun i => readSample host (buf.getD (headerSize + i.val * 2) 0)
    (buf.getD (headerSize + i.val * 2 + 1) 0) byteSwap

/-- Without one NUL at the end, if there is one. -/
def readText (buf : List UInt8) : List UInt8 :=
  let payload := buf.drop headerSize
  if payload.getLast? = some 0 then payload.dropLast else payload

/-- A voice packet has one of two lengths: anything else could be taken for an unkey. -/
def parseBody (host : ByteOrder) (buf : List UInt8) (byteSwap : Bool) :
    FrameType → Except UsrpError (Option PcmFrame × Option (List UInt8))
  | .voice =>
    if buf.length ≠ headerSize ∧ buf.length ≠ packetSize then
      .error (.ambiguousLength buf.length headerSize packetSize)
    else .ok (if packetSize ≤ buf.length then some (readAudio host buf byteSwap) else none, none)
  | .text | .dtmf => .ok (none, some (readText buf))

def Frame.parse (host : ByteOrder) (buf : List UInt8) (byteSwap : Bool) : Except UsrpError Frame :=
  if buf.length < headerSize then .error (.tooShort buf.length)
  else if buf.take 4 ≠ magic then .error (.badMagic (buf.take 4))
  else do
    let frameType ← FrameType.fromU32 (u32At buf 20)
    let (audio, text) ← parseBody host buf byteSwap frameType
    return { seq := u32At buf 4, keyup := u32At buf 12 ≠ 0, talkgroup := u32At buf 16, frameType, audio, text }

end Usrp

end DmrBridge
