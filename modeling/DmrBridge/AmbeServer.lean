import DmrBridge.Dv3000

/-!
# The AMBEserver client

A `Vocoder` that turns each call into one DV3000 request and reads the result off the answer. The
link under it is a parameter.
-/

open DmrBridge.Dv3000

namespace DmrBridge

/-- `send_recv` of a link with state `S`: one request out, one packet or an error back. -/
abbrev SendRecv (S : Type) := S → List UInt8 → S × Except VocoderError Packet

/-- `recv`: what does not fit into the buffer is cut off. -/
def recvPacket (datagram : List UInt8) : Except VocoderError Packet :=
  match parse (datagram.take maxPacket) with
  | .ok (response, _) => .ok response
  | .error e => .error (.parse e)

theorem recvPacket_of_parse {datagram : List UInt8} {packet : Packet} {n : Nat} (hlen : datagram.length ≤ maxPacket)
    (h : parse datagram = .ok (packet, n)) : recvPacket datagram = .ok packet := by
  rw [recvPacket, List.take_of_length_le hlen, h]

/-- `to_chip_byte` -/
def toChipByte (db : Db) : Int8 := .ofInt (max (-90) (min 90 db))

namespace AmbeServer

variable {S : Type} (sendRecv : SendRecv S)

def init (s : S) : S × Except VocoderError Unit :=
  match sendRecv s buildReset with
  | (s, .error e) => (s, .error e)
  | (s, .ok response) =>
    if isReady response = false then
      (s, .error (.init ("expected READY after reset, got " ++ response.debug)))
    else
      match sendRecv s buildRatepDmr with
      | (s, .error e) => (s, .error e)
      | (s, .ok response) =>
        if isRatepAck response = false then
          (s, .error (.init ("expected RATEP ack, got " ++ response.debug)))
        else (s, .ok ())

def encode (s : S) (pcm : PcmFrame) : S × Except VocoderError AmbeFrame :=
  match sendRecv s (buildAudio pcm) with
  | (s, .ok (.ambe frame)) => (s, .ok frame)
  | (s, .ok other) => (s, .error (.encode ("expected AMBE response, got " ++ other.debug)))
  | (s, .error e) => (s, .error e)

def decodeRequest : Option AmbeFrame → List UInt8
  | some ambe => buildAmbe ambe
  | none => buildAmbeLostFrame

def decode (s : S) (ambe : Option AmbeFrame) : S × Except VocoderError PcmFrame :=
  match sendRecv s (decodeRequest ambe) with
  | (s, .ok (.audio samples)) => (s, .ok samples)
  | (s, .ok other) => (s, .error (.decode ("expected audio response, got " ++ other.debug)))
  | (s, .error e) => (s, .error e)

def setGain (s : S) (inDb outDb : Db) : S × Except VocoderError Unit :=
  match sendRecv s (buildGain (toChipByte inDb) (toChipByte outDb)) with
  | (s, .error e) => (s, .error e)
  | (s, .ok response) =>
    if isGainAck response = false then (s, .error (.init ("expected GAIN ack, got " ++ response.debug)))
    else (s, .ok ())

/-- `reset` and `warm_cache` are the trait's defaults: nothing goes to the server. -/
def client : Vocoder S where
  encode := encode sendRecv
  decode := decode sendRecv
  reset := id
  warmCache := id
  setGain := setGain sendRecv

theorem decode_link (s : S) (ambe : Option AmbeFrame) :
    (decode sendRecv s ambe).1 = (sendRecv s (decodeRequest ambe)).1 := by
  rw [decode]
  rcases sendRecv s (decodeRequest ambe) with ⟨t, e | packet⟩
  · rfl
  · cases packet <;> rfl

theorem decode_ok_iff (s : S) (ambe : Option AmbeFrame) (pcm : PcmFrame) :
    (decode sendRecv s ambe).2 = .ok pcm ↔ (sendRecv s (decodeRequest ambe)).2 = .ok (.audio pcm) := by
  rw [decode]
  rcases sendRecv s (decodeRequest ambe) with ⟨t, e | packet⟩
  · simp
  · cases packet <;> simp

end AmbeServer

/-! ## Sequences of calls -/

inductive VocoderCall where
  | encode (pcm : PcmFrame)
  | decode (ambe : Option AmbeFrame)
  deriving DecidableEq

inductive VocoderResult where
  | encoded (result : Except VocoderError AmbeFrame)
  | decoded (result : Except VocoderError PcmFrame)

def VocoderResult.outcome : VocoderResult → Option AmbeFrame ⊕ Option PcmFrame
  | .encoded result => .inl result.toOption
  | .decoded result => .inr result.toOption

/-- The same value, or an error on both sides. -/
def VocoderResult.Agrees (r r' : VocoderResult) : Prop := r.outcome = r'.outcome

variable {σ : Type}

def Vocoder.call (V : Vocoder σ) (s : σ) : VocoderCall → σ × List VocoderResult
  | .encode pcm => ((V.encode s pcm).1, [.encoded (V.encode s pcm).2])
  | .decode ambe => ((V.decode s ambe).1, [.decoded (V.decode s ambe).2])

/-- The backend with a log of the calls that reach it. -/
def Vocoder.logged (V : Vocoder σ) : Vocoder (σ × List VocoderCall) where
  encode s pcm := (((V.encode s.1 pcm).1, s.2 ++ [.encode pcm]), (V.encode s.1 pcm).2)
  decode s ambe := (((V.decode s.1 ambe).1, s.2 ++ [.decode ambe]), (V.decode s.1 ambe).2)
  reset s := (V.reset s.1, s.2)
  warmCache s := (V.warmCache s.1, s.2)
  setGain s inDb outDb := (((V.setGain s.1 inDb outDb).1, s.2), (V.setGain s.1 inDb outDb).2)

@[simp]
theorem logged_call (V : Vocoder σ) (v : σ) (log : List VocoderCall) (c : VocoderCall) :
    V.logged.call (v, log) c = (((V.call v c).1, log ++ [c]), (V.call v c).2) := by
  cases c <;> rfl

end DmrBridge
