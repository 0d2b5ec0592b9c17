/-!
# On-air identities, frames and call events

The newtypes of `dmr-types`, the channel events of `dmr-events` and the audio frame of
`dmr-wire::audio`. A newtype carries the range its `TryFrom` checks.
-/

namespace DmrBridge

/-- Milliseconds. The clock is read, never compared with another machine's. -/
abbrev Instant := Nat
abbrev Duration := Nat

abbrev Bytes (n : Nat) := Vector UInt8 n

def max24Bit : UInt32 := 0x00FFFFFF
def maxColorCode : UInt8 := 15

inductive InvalidValue where
  | dmrIdZero
  | subscriberIdZero
  | subscriberIdTooLarge (v : UInt32)
  | talkgroupZero
  | talkgroupTooLarge (v : UInt32)
  | colorCodeTooLarge (v : UInt8)
  deriving DecidableEq, Repr

/-! ## Identities -/

structure DmrId where
  asU32 : UInt32
  nonzero : asU32 ≠ 0
  deriving DecidableEq, Repr

def DmrId.tryFrom (v : UInt32) : Except InvalidValue DmrId :=
  if h : v = 0 then .error .dmrIdZero else .ok ⟨v, h⟩

structure SubscriberId where
  asU32 : UInt32
  nonzero : asU32 ≠ 0
  range : asU32 ≤ max24Bit
  deriving DecidableEq, Repr

def SubscriberId.tryFrom (v : UInt32) : Except InvalidValue SubscriberId :=
  if h0 : v = 0 then .error .subscriberIdZero
  else if h : v > max24Bit then .error (.subscriberIdTooLarge v)
  else .ok ⟨v, h0, UInt32.not_lt.mp h⟩

structure Talkgroup where
  asU32 : UInt32
  nonzero : asU32 ≠ 0
  range : asU32 ≤ max24Bit
  deriving DecidableEq, Repr

def Talkgroup.tryFrom (v : UInt32) : Except InvalidValue Talkgroup :=
  if h0 : v = 0 then .error .talkgroupZero
  else if h : v > max24Bit then .error (.talkgroupTooLarge v)
  else .ok ⟨v, h0, UInt32.not_lt.mp h⟩

structure ColorCode where
  value : UInt8
  range : value ≤ maxColorCode
  deriving DecidableEq, Repr

def ColorCode.tryFrom (v : UInt8) : Except InvalidValue ColorCode :=
  if h : v > maxColorCode then .error (.colorCodeTooLarge v) else .ok ⟨v, UInt8.not_lt.mp h⟩

inductive Slot where
  | one
  | two
  deriving DecidableEq, Repr

@[simp]
theorem dmrId_tryFrom_asU32 (d : DmrId) : DmrId.tryFrom d.asU32 = .ok d := by
  simp [DmrId.tryFrom, d.nonzero]

@[simp]
theorem subscriberId_tryFrom_asU32 (s : SubscriberId) : SubscriberId.tryFrom s.asU32 = .ok s := by
  simp [SubscriberId.tryFrom, s.nonzero, UInt32.not_lt.mpr s.range]

/-! ## Frames -/

/-- 20 ms of PCM: `PCM_SAMPLES` is 160. -/
abbrev PcmFrame := Vector Int16 160

/-- One channel-coded AMBE+2 frame: `AMBE_FRAME_SIZE` is 9. -/
abbrev AmbeFrame := Bytes 9

/-- One event on the seam between FM and DMR. `dmrStreamId` is set on the way to FM only. -/
structure AudioFrame where
  keyup : Bool
  samples : Option PcmFrame
  dmrStreamId : Option UInt32
  deriving DecidableEq

/-! ## Call events -/

structure CallMetadata where
  dmrId : SubscriberId
  tg : Talkgroup
  slot : Slot
  cc : ColorCode
  call : Option String
  name : Option String
  deriving DecidableEq

inductive MetaEvent where
  | call (data : CallMetadata)
  | clear
  deriving DecidableEq

inductive CallDirection where
  | fmToDmr
  | dmrToFm
  deriving DecidableEq

inductive TerminationReason where
  | normal
  | streamTimeout
  | txTimeout
  | shutdown
  | networkReset
  deriving DecidableEq

inductive StatsEvent where
  | callStart (dir : CallDirection) (srcId : SubscriberId) (dstId : UInt32) (slot : Slot)
  | voiceFrame (dir : CallDirection) (transcode : Duration)
  | drop (dir : CallDirection)
  | callEnd (dir : CallDirection) (reason : TerminationReason)
  deriving DecidableEq

/-- `dsp::dB`, in whole decibels: the chip protocol carries no fraction. -/
abbrev Db := Int

inductive ParseError where
  | tooShort (have_ need : Nat)
  | badStartByte (b : UInt8)
  | incomplete (have_ need : Nat)
  | unknownType (t : UInt8)
  | badFieldId (expected got : UInt8)
  | badBitCount (expected got : UInt8)
  | badSampleCount (expected got : UInt8)
  | emptyControl
  deriving DecidableEq, Repr

inductive VocoderError where
  | encode (msg : String)
  | decode (msg : String)
  | io
  | protocol (msg : String)
  | parse (e : ParseError)
  | init (msg : String)
  | unsupported (what : String)
  deriving DecidableEq

structure Vocoder (σ : Type) where
  encode : σ → PcmFrame → σ × Except VocoderError AmbeFrame
  /-- `none` is a known-missing slot of the stream. -/
  decode : σ → Option AmbeFrame → σ × Except VocoderError PcmFrame
  reset : σ → σ
  warmCache : σ → σ
  setGain : σ → Db → Db → σ × Except VocoderError Unit

end DmrBridge
