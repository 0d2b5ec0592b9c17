import DmrBridge.Frame
import DmrBridge.Bptc
import DmrBridge.EmbeddedLc

/-!
# The PTT machine

`PttMachine` of `voice/ptt.rs`. A handler runs to its end on one reading of the clock and returns
the sends it makes, in order. What the other tasks and the operating system decide while it runs
(`Env`) is an argument.
-/

namespace DmrBridge

def dataTypeVoiceHeader : UInt8 := 1
def dataTypeVoiceTerminator : UInt8 := 2
def silence : PcmFrame := .replicate 160 0

inductive Direction where
  | both
  | dmrToFm
  | fmToDmr
  deriving DecidableEq

structure VoiceConfig where
  gateway : Direction
  slot : Slot
  talkgroup : Talkgroup
  callType : CallType
  hangTime : Duration
  streamTimeout : Duration
  txTimeout : Duration
  repeaterId : DmrId
  srcId : SubscriberId
  colorCode : ColorCode
  callsign : List UInt8

inductive ControlEvent where
  | networkReset
  deriving DecidableEq

/-! ## State -/

structure RxCall where
  streamId : UInt32
  srcId : SubscriberId
  dstId : UInt32
  slot : Slot
  started : Instant
  lastVoice : Instant
  /-- `none` until the first voice frame of the stream. -/
  lastSeq : Option UInt8

structure TxCall where
  streamId : UInt32
  dmrdSeq : UInt8
  vseq : UInt8
  pcmBuf : List PcmFrame
  started : Instant
  lcRotation : List Fragments
  superframeIdx : UInt32
  /-- `vseq` wraps from 5 to 0. -/
  vseq_lt : vseq < 6
  /-- At minimum the voice LC, so the rotation index never divides by zero. -/
  rotation_pos : 0 < lcRotation.length

inductive PttState where
  | idle
  | rx (call : RxCall)
  | rxHang (deadline : Instant)
  | tx (call : TxCall)

/-- The vocoder behind its mutex, the cancellation token and the pre-encode filter. -/
structure Codec (σ φ : Type) where
  vocoder : σ
  poisoned : Bool
  cancelled : Bool
  preEncodeFilter : Option φ

structure Machine (σ φ : Type) where
  state : PttState
  codec : Codec σ φ

structure PreEncode (φ : Type) where
  reset : φ → φ
  processPcm : φ → PcmFrame → φ × PcmFrame

structure Params (σ φ : Type) where
  config : VoiceConfig
  vocoder : Vocoder σ
  filter : PreEncode φ
  callsignLookup : Option (SubscriberId → Option (String × String))

/-- One encode or decode: the token before and after it, a panic in it, its duration. -/
structure CallEnv where
  cancelBefore : Bool
  cancelAfter : Bool
  panics : Bool
  elapsed : Duration

structure Env where
  now : Instant
  /-- `new_stream_id()` -/
  streamId : UInt32
  /-- `dmrd_voice_out.try_send` finds no room. -/
  voiceFull : Bool
  /-- `audio_tx.try_reserve_many` finds too little room. -/
  audioFull : Bool
  calls : Nat → CallEnv

/-- One send, tried or made. `panicked` is an assertion that fired. -/
inductive Output where
  | audio (frame : AudioFrame)
  | voice (pkt : DmrdPacket) (queued : Bool)
  | control (pkt : DmrdPacket)
  | metadata (event : MetaEvent)
  | stats (event : StatsEvent)
  | panicked
  deriving DecidableEq

variable {σ φ : Type}

def PttState.isTx : PttState → Bool
  | .tx _ => true
  | _ => false

def PttState.rxStream : PttState → Option UInt32
  | .rx call => some call.streamId
  | _ => none

def deadline (config : VoiceConfig) (now : Instant) : PttState → Instant
  | .rx call => call.lastVoice + config.streamTimeout
  | .rxHang dl => dl
  | .tx call => call.started + config.txTimeout
  | .idle => now + 3600000

/-! ## Vocoder -/

def Codec.observe (c : Codec σ φ) (cancel : Bool) : Codec σ φ := { c with cancelled := c.cancelled || cancel }

def Codec.fatal (c : Codec σ φ) : Codec σ φ := { c with cancelled := true }

def onPttUp (P : Params σ φ) (c : Codec σ φ) : Codec σ φ :=
  if c.poisoned then c.fatal else { c with vocoder := P.vocoder.reset c.vocoder }

def warmDecoderCache (P : Params σ φ) (c : Codec σ φ) : Codec σ φ :=
  if c.poisoned then c.fatal else { c with vocoder := P.vocoder.warmCache c.vocoder }

/-- The lock, the call under `catch_unwind` and the second look at the token. -/
def guarded {α : Type} (c : Codec σ φ) (e : CallEnv) (cancelled panicked : VocoderError)
    (call : σ → σ × Except VocoderError α) : Codec σ φ × Except VocoderError α :=
  let c := c.observe e.cancelBefore
  if c.cancelled then (c, .error cancelled)
  else if c.poisoned || e.panics then ({ c with poisoned := true }.fatal, .error panicked)
  else
    let (v, r) := call c.vocoder
    let c := { c with vocoder := v }.observe e.cancelAfter
    (c, if c.cancelled then .error cancelled else r)

def decode (P : Params σ φ) (c : Codec σ φ) (e : CallEnv) (ambe : Option AmbeFrame) :
    Codec σ φ × Except VocoderError PcmFrame :=
  guarded c e (.decode "cancelled") (.decode "vocoder panic") fun v => P.vocoder.decode v ambe

def encode (P : Params σ φ) (c : Codec σ φ) (e : CallEnv) (pcm : PcmFrame) :
    Codec σ φ × Except VocoderError AmbeFrame :=
  -- The filter runs before the token is read.
  let (filter, pcm) := match c.preEncodeFilter with
    | some f => ((some (P.filter.processPcm f pcm).1 : Option φ), (P.filter.processPcm f pcm).2)
    | none => (none, pcm)
  guarded { c with preEncodeFilter := filter } e (.encode "cancelled") (.encode "vocoder panic") fun v =>
    P.vocoder.encode v pcm

/-! ## Frames and packets -/

def makeVoiceFrame (audio : PcmFrame) (dmrStreamId : UInt32) : AudioFrame :=
  { keyup := true, samples := some audio, dmrStreamId := some dmrStreamId }

def makeUnkeyFrame (dmrStreamId : Option UInt32) : AudioFrame :=
  { keyup := false, samples := none, dmrStreamId }

def buildDmrd (seq : UInt8) (config : VoiceConfig) (streamId : UInt32) (frameType : FrameType)
    (dtypeVseq : UInt8) (dmrData : Bytes 33) : Dmrd :=
  { seq, srcId := config.srcId, dstId := config.talkgroup.asU32, repeaterId := config.repeaterId
    slot := config.slot, callType := config.callType, frameType, dtypeVseq, streamId, dmrData }

def isGroupCall (config : VoiceConfig) : Bool := config.callType = .group

/-- Header and terminator differ in their data type only. `none` is a panic. -/
def buildTxControl (config : VoiceConfig) (tx : TxCall) (dataType : UInt8) : Option (DmrdPacket × TxCall) := do
  let lc ← buildVoiceLc (isGroupCall config) config.talkgroup.asU32 config.srcId.asU32 dataType
  let burst := buildDataBurst lc dataType config.colorCode.value bsDataSync
  let pkt ← (buildDmrd tx.dmrdSeq config tx.streamId .dataSync dataType burst).serialize
  return (pkt, { tx with dmrdSeq := tx.dmrdSeq + 1 })

def buildTxHeader (config : VoiceConfig) (tx : TxCall) : Option (DmrdPacket × TxCall) :=
  buildTxControl config tx dataTypeVoiceHeader

def buildTxTerminator (config : VoiceConfig) (tx : TxCall) : Option (DmrdPacket × TxCall) :=
  buildTxControl config tx dataTypeVoiceTerminator

/-- Fragment `idx` of the LC whose turn it is in this superframe. -/
def rotationFragment (tx : TxCall) (idx : Fin 4) : Bytes 4 :=
  (tx.lcRotation.get ⟨tx.superframeIdx.toNat % tx.lcRotation.length, Nat.mod_lt _ tx.rotation_pos⟩)[idx]

def burstSync (config : VoiceConfig) (tx : TxCall) : Bytes 6 :=
  match tx.vseq.toNat with
  | 0 => bsVoiceSync
  | 1 => buildEmbSection config.colorCode.value (lcssForFragment 0) (rotationFragment tx 0)
  | 2 => buildEmbSection config.colorCode.value (lcssForFragment 1) (rotationFragment tx 1)
  | 3 => buildEmbSection config.colorCode.value (lcssForFragment 2) (rotationFragment tx 2)
  | 4 => buildEmbSection config.colorCode.value (lcssForFragment 3) (rotationFragment tx 3)
  | _ => buildNullEmb config.colorCode.value

def TxCall.advance (tx : TxCall) : TxCall :=
  { tx with
    dmrdSeq := tx.dmrdSeq + 1
    superframeIdx := if (tx.vseq + 1) % 6 = 0 then tx.superframeIdx + 1 else tx.superframeIdx
    vseq := (tx.vseq + 1) % 6
    vseq_lt := UInt8.mod_lt _ (by decide) }

def burstDmrd (config : VoiceConfig) (ambe : Vector AmbeFrame 3) (tx : TxCall) : Dmrd :=
  let ft := if tx.vseq = 0 then FrameType.voiceSync else .voice
  buildDmrd tx.dmrdSeq config tx.streamId ft tx.vseq (assembleBurst ambe (burstSync config tx))

def buildVoiceBurst (config : VoiceConfig) (ambe : Vector AmbeFrame 3) (tx : TxCall) :
    Option (DmrdPacket × TxCall) := do
  let pkt ← (burstDmrd config ambe tx).serialize
  return (pkt, tx.advance)

/-- The three encodes of `build_tx_voice`; the first error ends the burst. -/
def encodeBurst (P : Params σ φ) (c : Codec σ φ) (calls : Nat → CallEnv) (pcm : Vector PcmFrame 3) :
    Codec σ φ × Option (Vector AmbeFrame 3) :=
  match encode P c (calls 0) (pcm.get 0) with
  | (c, .error _) => (c, none)
  | (c, .ok a0) =>
    match encode P c (calls 1) (pcm.get 1) with
    | (c, .error _) => (c, none)
    | (c, .ok a1) =>
      match encode P c (calls 2) (pcm.get 2) with
      | (c, .error _) => (c, none)
      | (c, .ok a2) => (c, some #v[a0, a1, a2])

def dropBurst (dir : CallDirection) : List Output := List.replicate 3 (.stats (.drop dir))

def trySendVoiceDmrd (env : Env) (pkt : DmrdPacket) : List Output :=
  if env.voiceFull then .voice pkt false :: dropBurst .fmToDmr
  else .voice pkt true :: (List.range 3).map fun i => .stats (.voiceFrame .fmToDmr (env.calls i).elapsed)

/-- The first three frames of the buffer, filled up with silence. -/
def takeBurst (buf : List PcmFrame) : Vector PcmFrame 3 := .ofFn fun i => buf.getD i.val silence

def sendBurst (P : Params σ φ) (c : Codec σ φ) (env : Env) (tx : TxCall) : Codec σ φ × TxCall × List Output :=
  let pcm := takeBurst tx.pcmBuf
  let tx := { tx with pcmBuf := [] }
  match encodeBurst P c env.calls pcm with
  | (c, none) => (c, tx, dropBurst .fmToDmr)
  | (c, some ambe) =>
    match buildVoiceBurst P.config ambe tx with
    | none => (c, tx, [.panicked])
    | some (pkt, tx) => (c, tx, trySendVoiceDmrd env pkt)

def flushTx (P : Params σ φ) (c : Codec σ φ) (env : Env) (tx : TxCall) : Codec σ φ × TxCall × List Output :=
  if tx.pcmBuf.isEmpty then (c, tx, []) else sendBurst P c env tx

/-- Flush, terminator and `CallEnd`: the end of a call by unkey, timeout or shutdown. -/
def endTx (P : Params σ φ) (m : Machine σ φ) (env : Env) (tx : TxCall) (reason : TerminationReason) :
    Machine σ φ × List Output :=
  let (c, tx, flushed) := flushTx P m.codec env tx
  match buildTxTerminator P.config tx with
  | none => (⟨.idle, c⟩, flushed ++ [.panicked])
  | some (term, _) => (⟨.idle, c⟩, flushed ++ [.control term, .stats (.callEnd .fmToDmr reason)])

/-! ## Receiving -/

def matchesConfig (pkt : Dmrd) (config : VoiceConfig) : Bool :=
  let dstMatch := match config.callType with
    | .group => pkt.dstId = config.talkgroup.asU32
    | .unit => pkt.dstId = config.srcId.asU32
  dstMatch && pkt.slot = config.slot && pkt.callType = config.callType

def nonEmpty (s : String) : Option String := if s.isEmpty then none else some s

def emitCallMetadata (P : Params σ φ) (pkt : Dmrd) : List Output :=
  match Talkgroup.tryFrom pkt.dstId with
  | .error _ => []
  | .ok tg =>
    let (call, name) := match P.callsignLookup.bind (· pkt.srcId) with
      | some (c, n) => (nonEmpty c, nonEmpty n)
      | none => (none, none)
    [.metadata (.call { dmrId := pkt.srcId, tg, slot := pkt.slot, cc := P.config.colorCode, call, name })]

def rxCallStart (pkt : Dmrd) : Output := .stats (.callStart .dmrToFm pkt.srcId pkt.dstId pkt.slot)
def rxCallEnd (reason : TerminationReason) : Output := .stats (.callEnd .dmrToFm reason)

def newRxCall (pkt : Dmrd) (now : Instant) (lastSeq : Option UInt8) : RxCall :=
  { streamId := pkt.streamId, srcId := pkt.srcId, dstId := pkt.dstId, slot := pkt.slot, started := now
    lastVoice := now, lastSeq }

def onHeader (P : Params σ φ) (m : Machine σ φ) (env : Env) (pkt : Dmrd) : Machine σ φ × List Output :=
  -- Two more headers of the stream usually follow the first.
  if m.state.rxStream = some pkt.streamId then (m, [])
  else (⟨.rx (newRxCall pkt env.now none), warmDecoderCache P (onPttUp P m.codec)⟩,
    emitCallMetadata P pkt ++ [rxCallStart pkt])

def onTerminator (P : Params σ φ) (m : Machine σ φ) (env : Env) (pkt : Dmrd) : Machine σ φ × List Output :=
  if m.state.rxStream = some pkt.streamId then
    (⟨.rxHang (env.now + P.config.hangTime), m.codec⟩,
      [.metadata .clear, rxCallEnd .normal, .audio (makeUnkeyFrame (some pkt.streamId))])
  else (m, [])

/-- Packets missing before `seq`. A distance of 128 and more is a late or repeated packet. -/
def seqGap (last seq : UInt8) : UInt8 :=
  let delta := seq - (last + 1)
  if 1 ≤ delta ∧ delta < 128 then delta else 0

structure VoiceEntry where
  call : RxCall
  priorCallEnd : Option UInt32
  callStart : Bool
  gap : UInt8

/-- The call after a voice packet, and the boundary events that are still to be sent. -/
def enterVoice (state : PttState) (pkt : Dmrd) (now : Instant) : VoiceEntry :=
  match state with
  | .rx call =>
    if call.streamId ≠ pkt.streamId then
      { call := newRxCall pkt now (some pkt.seq), priorCallEnd := some call.streamId, callStart := true, gap := 0 }
    else
      { call := { call with lastSeq := some pkt.seq, lastVoice := now }, priorCallEnd := none
        callStart := false, gap := call.lastSeq.elim 0 (seqGap · pkt.seq) }
  | _ => { call := newRxCall pkt now (some pkt.seq), priorCallEnd := none, callStart := true, gap := 0 }

def boundaryOutputs (P : Params σ φ) (pkt : Dmrd) (e : VoiceEntry) : List Output :=
  (match e.priorCallEnd with
    | some prior => [rxCallEnd .normal, .audio (makeUnkeyFrame (some prior))]
    | none => []) ++
  (if e.callStart then rxCallStart pkt :: emitCallMetadata P pkt else []) ++
  List.replicate e.gap.toNat (.stats (.drop .dmrToFm))

def gapBoundaryPackets : UInt8 := 3

def lostFrameOutputs (streamId : UInt32) : Except VocoderError PcmFrame → List Output
  | .ok pcm => [.audio (makeVoiceFrame pcm streamId)]
  | .error _ => []

def frameOutputs (streamId : UInt32) (elapsed : Duration) : Except VocoderError PcmFrame → List Output
  | .ok pcm => [.stats (.voiceFrame .dmrToFm elapsed), .audio (makeVoiceFrame pcm streamId)]
  | .error _ => [.stats (.drop .dmrToFm)]

/-- `n` lost-frame decodes, the first of them the `i`-th call of the handler. -/
def fillGap (P : Params σ φ) (env : Env) (streamId : UInt32) :
    Nat → Codec σ φ → Nat → Codec σ φ × List Output
  | 0, c, _ => (c, [])
  | n + 1, c, i =>
    let (c, r) := decode P c (env.calls i) none
    let (c, outs) := fillGap P env streamId n c (i + 1)
    (c, lostFrameOutputs streamId r ++ outs)

def decodeFrames (P : Params σ φ) (env : Env) (streamId : UInt32) :
    List AmbeFrame → Codec σ φ → Nat → Codec σ φ × List Output
  | [], c, _ => (c, [])
  | ambe :: frames, c, i =>
    let (c, r) := decode P c (env.calls i) (some ambe)
    let (c, outs) := decodeFrames P env streamId frames c (i + 1)
    (c, frameOutputs streamId (env.calls i).elapsed r ++ outs)

/-- The audio of one voice packet after `gap` missing ones. All or nothing on a full channel. -/
def voiceAudio (P : Params σ φ) (c : Codec σ φ) (env : Env) (pkt : Dmrd) (gap : UInt8) :
    Codec σ φ × List Output :=
  let c := if gap > gapBoundaryPackets then onPttUp P c else c
  let gapFrames := if gap > gapBoundaryPackets then 0 else 3 * gap.toNat
  if env.audioFull then (c, dropBurst .dmrToFm)
  else
    let (c, lost) := fillGap P env pkt.streamId gapFrames c 0
    let (c, frames) := decodeFrames P env pkt.streamId (extractAmbe pkt.dmrData).toList c gapFrames
    (c, lost ++ frames)

def onVoice (P : Params σ φ) (m : Machine σ φ) (env : Env) (pkt : Dmrd) : Machine σ φ × List Output :=
  let e := enterVoice m.state pkt env.now
  let c := if e.callStart then warmDecoderCache P (onPttUp P m.codec) else m.codec
  let (c, outs) := voiceAudio P c env pkt e.gap
  (⟨.rx e.call, c⟩, boundaryOutputs P pkt e ++ outs)

/-! ## Event handlers -/

/-- Takes the state before it looks at it. -/
def onNetworkReset (m : Machine σ φ) : Machine σ φ × List Output :=
  match m.state with
  | .tx _ => ({ m with state := .idle }, [.stats (.callEnd .fmToDmr .networkReset)])
  | _ => ({ m with state := .idle }, [])

def onControl (m : Machine σ φ) : ControlEvent → Machine σ φ × List Output
  | .networkReset => onNetworkReset m

def onDmrd (P : Params σ φ) (m : Machine σ φ) (env : Env) (pkt : Dmrd) : Machine σ φ × List Output :=
  if P.config.gateway = .fmToDmr then (m, [])
  else if !matchesConfig pkt P.config then (m, [])
  else if m.state.isTx then (m, [])
  else
    match pkt.frameType with
    | .dataSync =>
      if pkt.dtypeVseq = dataTypeVoiceHeader then onHeader P m env pkt
      else if pkt.dtypeVseq = dataTypeVoiceTerminator then onTerminator P m env pkt
      else (m, [])
    | .voice | .voiceSync => onVoice P m env pkt

/-- The voice LC, then the talker alias if the callsign has one. `none` is a panic. -/
def buildLcRotation (config : VoiceConfig) : Option (List Fragments) := do
  let lcBody ← buildVoiceLcBody (isGroupCall config) config.talkgroup.asU32 config.srcId.asU32
  return buildFragments lcBody :: (encodeTalkerAliasLcs config.callsign).map buildFragments

def newTxCall (env : Env) (rotation : List Fragments) (h : 0 < rotation.length) : TxCall :=
  { streamId := env.streamId, dmrdSeq := 0, vseq := 0, pcmBuf := [], started := env.now
    lcRotation := rotation, superframeIdx := 0, vseq_lt := by decide, rotation_pos := h }

def startTx (P : Params σ φ) (m : Machine σ φ) (env : Env) (audio : PcmFrame) : Machine σ φ × List Output :=
  match buildLcRotation P.config with
  | none => (m, [.panicked])
  | some rotation =>
    if h : 0 < rotation.length then
      let tx := newTxCall env rotation h
      let c := onPttUp P m.codec
      let c := { c with preEncodeFilter := c.preEncodeFilter.map P.filter.reset }
      let started : Output :=
        .stats (.callStart .fmToDmr P.config.srcId P.config.talkgroup.asU32 P.config.slot)
      match buildTxHeader P.config tx with
      | none => (⟨.idle, c⟩, [started, .panicked])
      | some (hdr, tx) => (⟨.tx { tx with pcmBuf := [audio] }, c⟩, [started, .control hdr])
    else (m, [.panicked])

def onAudio (P : Params σ φ) (m : Machine σ φ) (env : Env) (frame : AudioFrame) : Machine σ φ × List Output :=
  if P.config.gateway = .dmrToFm then (m, [])
  else if !frame.keyup then
    match m.state with
    | .tx tx => endTx P m env tx .normal
    | _ => (m, [])
  else
    match frame.samples, m.state with
    | none, _ => (m, [])
    | some _, .rx _ | some _, .rxHang _ => (m, [])
    | some audio, .idle => startTx P m env audio
    | some audio, .tx tx =>
      let tx := { tx with pcmBuf := tx.pcmBuf ++ [audio] }
      if 3 ≤ tx.pcmBuf.length then
        let (c, tx, outs) := sendBurst P m.codec env tx
        (⟨.tx tx, c⟩, outs)
      else (⟨.tx tx, m.codec⟩, [])

def onTimeout (P : Params σ φ) (m : Machine σ φ) (env : Env) : Machine σ φ × List Output :=
  match m.state with
  | .rx call =>
    (⟨.rxHang (env.now + P.config.hangTime), m.codec⟩,
      [.metadata .clear, rxCallEnd .streamTimeout, .audio (makeUnkeyFrame (some call.streamId))])
  | .rxHang _ => (⟨.idle, m.codec⟩, [])
  | .tx tx => if env.now ≥ tx.started + P.config.txTimeout then endTx P m env tx .txTimeout else (m, [])
  | .idle => (m, [])

def onShutdown (P : Params σ φ) (m : Machine σ φ) (env : Env) : Machine σ φ × List Output :=
  match m.state with
  | .rx call =>
    (⟨.idle, m.codec⟩,
      [.metadata .clear, rxCallEnd .shutdown, .audio (makeUnkeyFrame (some call.streamId))])
  | .rxHang _ => (⟨.idle, m.codec⟩, [.audio (makeUnkeyFrame none)])
  | .tx tx => endTx P m env tx .shutdown
  | .idle => (m, [])

inductive PttEvent where
  | control (event : ControlEvent)
  | timeout
  | dmrd (pkt : Dmrd)
  | audio (frame : AudioFrame)
  | shutdown
  deriving DecidableEq

def handle (P : Params σ φ) (m : Machine σ φ) (env : Env) : PttEvent → Machine σ φ × List Output
  | .control event => onControl m event
  | .timeout => onTimeout P m env
  | .dmrd pkt => onDmrd P m env pkt
  | .audio frame => onAudio P m env frame
  | .shutdown => onShutdown P m env

/-- `PttMachine::new` -/
def newMachine (vocoder : σ) (preEncodeFilter : Option φ) : Machine σ φ :=
  { state := .idle
    codec := { vocoder, poisoned := false, cancelled := false, preEncodeFilter } }

def turn (P : Params σ φ) (m : Machine σ φ) (e : Env × PttEvent) : Machine σ φ × List Output :=
  handle P m e.1 e.2

def turnState (P : Params σ φ) (m : Machine σ φ) (e : Env × PttEvent) : Option (Machine σ φ) :=
  some (turn P m e).1

/-! ## A small instance -/

def sampleSrc : SubscriberId := ⟨3151238, by decide, by decide⟩

def sampleConfig : VoiceConfig :=
  { gateway := .both, slot := .one, talkgroup := ⟨91, by decide, by decide⟩, callType := .group
    hangTime := 500, streamTimeout := 360, txTimeout := 180000, repeaterId := ⟨315123801, by decide⟩
    srcId := sampleSrc, colorCode := ⟨1, by decide⟩, callsign := [] }

/-- Encodes everything to zeros and decodes everything to silence. -/
def zeroVocoder : Vocoder Unit :=
  { encode := fun _ _ => ((), .ok (.replicate 9 0)), decode := fun _ _ => ((), .ok silence), reset := id
    warmCache := id, setGain := fun _ _ _ => ((), .ok ()) }

def sampleParams : Params Unit Unit :=
  { config := sampleConfig, vocoder := zeroVocoder, filter := ⟨id, fun f pcm => (f, pcm)⟩, callsignLookup := none }

/-- Nothing is full, nothing panics and nobody cancels. -/
def sampleEnv (now : Instant) (streamId : UInt32) : Env :=
  { now, streamId, voiceFull := false, audioFull := false
    calls := fun _ => { cancelBefore := false, cancelAfter := false, panics := false, elapsed := 0 } }

def samplePacket (frameType : FrameType) (dtypeVseq : UInt8) (streamId : UInt32) : Dmrd :=
  { seq := 0, srcId := sampleSrc, dstId := 91, repeaterId := ⟨315123801, by decide⟩, slot := .one
    callType := .group, frameType, dtypeVseq, streamId, dmrData := .replicate 33 0 }

end DmrBridge
