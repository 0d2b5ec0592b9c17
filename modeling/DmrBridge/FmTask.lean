import DmrBridge.Bridge
import DmrBridge.UsrpCodec
import DmrBridge.UsrpRx
import DmrBridge.Wav

/-!
# Audio to the FM peer

`usrp::tx_task` with its clock, its sequence counter and the packets it makes. A send that fails is
a packet that is lost: its number is gone.
-/

open Run

namespace DmrBridge

variable {σ φ α : Type}

def voiceFrameInterval : Duration := 20

structure FmConfig (α : Type) where
  host : Usrp.ByteOrder
  byteSwap : Bool
  talkgroup : UInt32
  levels : Levels α
  /-- `serde_json::to_string` -/
  toJson : CallMetadata → Option String
  /-- `pcm_record_dir` is set. -/
  recordDir : Bool

/-- A packet, and the frame of the queue it is made from. -/
inductive FmPacket where
  | text (seq : UInt32) (payload : String)
  | frame (source : AudioFrame) (packet : Usrp.Frame)

structure Sent where
  /-- The reading of the clock before it. -/
  time : Instant
  packet : FmPacket

/-- What the disk makes of a frame's recording, and of the recorder that ends with it. -/
structure RecordIo where
  opened : Bool
  taken : Nat
  disk : Disk

structure FmTask (α : Type) where
  audio : List AudioFrame
  audioClosed : Bool
  metadata : List MetaEvent
  metadataClosed : Bool
  cancelled : Bool
  clock : Instant
  fm : FmPhase
  seq : UInt32
  nextVoiceSend : Option Instant
  agc : Option α
  recorder : Option Recording
  currentDmrStreamId : Option UInt32
  hadVoiceInCall : Bool
  sent : List Sent
  /-- The files of the calls that are over, with the stream in their names. -/
  files : List (UInt32 × Recording)

inductive FmAction where
  | offer (frame : AudioFrame)
  | announce (event : MetaEvent)
  | closeAudio
  | closeMetadata
  | cancel
  | takeMetadata (now : Instant)
  | takeAudio (now : Instant) (io : RecordIo)
  | wake (now : Instant) (io : RecordIo)
  | leave (io : RecordIo)

/-- What is left of a frame once its samples are on their way. -/
structure Levelled where
  keyup : Bool
  samples : Option PcmFrame
  deriving DecidableEq

def Levels.applyAgc (L : Levels α) (agc : Option α) (frame : AudioFrame) : Option α × Option PcmFrame :=
  match agc with
  | none => (none, frame.samples)
  | some agc =>
    if frame.keyup then
      match frame.samples with
      | some pcm => (some (L.process agc pcm).1, some (L.process agc pcm).2)
      | none => (some agc, none)
    else (some (L.reset agc), frame.samples)

def Levels.applyLimiter (L : Levels α) (keyup : Bool) (samples : Option PcmFrame) : Option PcmFrame :=
  match L.limiter with
  | some limiter => if keyup then samples.map limiter else samples
  | none => samples

def Levels.level (L : Levels α) (agc : Option α) (frame : AudioFrame) : Option α × List Levelled :=
  ((L.applyAgc agc frame).1, [⟨frame.keyup, L.applyLimiter frame.keyup (L.applyAgc agc frame).2⟩])

namespace FmPacket

def bytes (C : FmConfig α) : FmPacket → List UInt8
  | .text seq payload => Usrp.serializeText seq payload
  | .frame _ packet => (packet.serialize C.host C.byteSwap).asBytes

def seq : FmPacket → UInt32
  | .text seq _ => seq
  | .frame _ packet => packet.seq

def source : FmPacket → Option AudioFrame
  | .text .. => none
  | .frame source _ => some source

end FmPacket

namespace FmTask

/-! ## Steps -/

/-- `open_call_recorder` -/
def openCallRecorder (C : FmConfig α) (opened : Bool) : Option Recording :=
  if C.recordDir ∧ opened then some (.recording .create) else none

def finalizeAgcOutCall (s : FmTask α) (disk : Disk) : FmTask α :=
  if s.hadVoiceInCall then
    { s with
      files := s.files ++ (s.recorder.map fun r => (s.currentDmrStreamId.getD 0, r.drop disk)).toList
      recorder := none
      currentDmrStreamId := none
      hadVoiceInCall := false }
  else s

def recordCall (C : FmConfig α) (s : FmTask α) (frame : AudioFrame) (samples : Option PcmFrame) (io : RecordIo) :
    FmTask α :=
  if frame.keyup then
    match samples with
    | some pcm =>
      let s :=
        if s.hadVoiceInCall then s
        else { s with currentDmrStreamId := frame.dmrStreamId, recorder := openCallRecorder C io.opened }
      { s with recorder := s.recorder.map (·.recordPcm pcm.toList io.taken io.disk), hadVoiceInCall := true }
    | none => s
  else finalizeAgcOutCall s io.disk

/-- When the next voice frame is due. Without a frame before it that is now. -/
def deadline (s : FmTask α) (now : Instant) : Instant := s.nextVoiceSend.getD now

/-- The turn of a frame from its deadline on. -/
def emit (C : FmConfig α) (s : FmTask α) (now : Instant) (frame : AudioFrame) (io : RecordIo) : FmTask α :=
  let nextVoiceSend := if Bridge.isVoice frame then some (deadline s now + voiceFrameInterval) else none
  let (agc, samples) := C.levels.applyAgc s.agc frame
  let samples := C.levels.applyLimiter frame.keyup samples
  let s := recordCall C { s with nextVoiceSend, agc } frame samples io
  let packet : Usrp.Frame :=
    { seq := s.seq, keyup := frame.keyup, talkgroup := C.talkgroup, frameType := .voice, audio := samples,
      text := none }
  { s with fm := .select, clock := now, seq := s.seq + 1, sent := s.sent ++ [⟨now, .frame frame packet⟩] }

def textOf (C : FmConfig α) : MetaEvent → Option String
  | .call data => C.toJson data
  | .clear => some "\x7b\x7d"

def takeMetadata (C : FmConfig α) (s : FmTask α) (now : Instant) : Option (FmTask α) :=
  match s.fm, s.metadata with
  | .select, event :: metadata =>
    if s.cancelled ∨ now < s.clock then none
    else
      match textOf C event with
      | none => some { s with metadata, clock := now }
      | some text =>
        some { s with metadata, clock := now, seq := s.seq + 1, sent := s.sent ++ [⟨now, .text s.seq text⟩] }
  | _, _ => none

/-- The poll has looked for a text before. One that came since then waits for the next turn. -/
def takeAudio (C : FmConfig α) (s : FmTask α) (now : Instant) (io : RecordIo) : Option (FmTask α) :=
  match s.fm, s.audio with
  | .select, frame :: audio =>
    if s.cancelled ∨ now < s.clock then none
    else if Bridge.isVoice frame ∧ now < deadline s now then some { s with audio, fm := .pacing frame, clock := now }
    else some { emit C s now frame io with audio }
  | _, _ => none

def wake (C : FmConfig α) (s : FmTask α) (now : Instant) (io : RecordIo) : Option (FmTask α) :=
  match s.fm with
  | .pacing frame => if s.cancelled ∨ now < s.clock ∨ now < deadline s now then none else some (emit C s now frame io)
  | _ => none

/-- The token is tripped, or a channel is closed and empty. The recorder goes with the task. -/
def leave (s : FmTask α) (io : RecordIo) : Option (FmTask α) :=
  let closed := s.fm = .select ∧ (s.metadataClosed ∧ s.metadata = [] ∨ s.audioClosed ∧ s.audio = [])
  if s.fm ≠ .returned ∧ (s.cancelled ∨ closed) then some { finalizeAgcOutCall s io.disk with fm := .returned } else none

def step (C : FmConfig α) (s : FmTask α) : FmAction → Option (FmTask α)
  | .offer frame => if s.audioClosed then none else some { s with audio := s.audio ++ [frame] }
  | .announce event => if s.metadataClosed then none else some { s with metadata := s.metadata ++ [event] }
  | .closeAudio => some { s with audioClosed := true }
  | .closeMetadata => some { s with metadataClosed := true }
  | .cancel => some { s with cancelled := true }
  | .takeMetadata now => takeMetadata C s now
  | .takeAudio now io => takeAudio C s now io
  | .wake now io => wake C s now io
  | .leave io => leave s io

def start (agc : Option α) : FmTask α where
  audio := []
  audioClosed := false
  metadata := []
  metadataClosed := false
  cancelled := false
  clock := 0
  fm := .select
  seq := 0
  nextVoiceSend := none
  agc := agc
  recorder := none
  currentDmrStreamId := none
  hadVoiceInCall := false
  sent := []
  files := []

/-! ## What a step can do -/

theorem finalizeAgcOutCall_eq (s : FmTask α) (disk : Disk) :
    ∃ recorder currentDmrStreamId hadVoiceInCall files,
      finalizeAgcOutCall s disk = { s with recorder, currentDmrStreamId, hadVoiceInCall, files } := by
  unfold finalizeAgcOutCall
  split
  · exact ⟨_, _, _, _, rfl⟩
  · exact ⟨_, _, _, _, rfl⟩

theorem recordCall_eq (C : FmConfig α) (s : FmTask α) (frame : AudioFrame) (samples : Option PcmFrame) (io : RecordIo) :
    ∃ recorder currentDmrStreamId hadVoiceInCall files,
      recordCall C s frame samples io = { s with recorder, currentDmrStreamId, hadVoiceInCall, files } := by
  unfold recordCall
  split
  · split
    · split
      · exact ⟨_, _, _, _, rfl⟩
      · exact ⟨_, _, _, _, rfl⟩
    · exact ⟨_, _, _, _, rfl⟩
  · exact finalizeAgcOutCall_eq s io.disk

/-- The packet of a frame. -/
def packetOf (C : FmConfig α) (s : FmTask α) (frame : AudioFrame) : Usrp.Frame where
  seq := s.seq
  keyup := frame.keyup
  talkgroup := C.talkgroup
  frameType := .voice
  audio := C.levels.applyLimiter frame.keyup (C.levels.applyAgc s.agc frame).2
  text := none

theorem emit_eq (C : FmConfig α) (s : FmTask α) (now : Instant) (frame : AudioFrame) (io : RecordIo) :
    ∃ recorder currentDmrStreamId hadVoiceInCall files,
      emit C s now frame io =
        { s with
          fm := .select
          clock := now
          seq := s.seq + 1
          nextVoiceSend := if Bridge.isVoice frame then some (deadline s now + voiceFrameInterval) else none
          agc := (C.levels.applyAgc s.agc frame).1
          sent := s.sent ++ [⟨now, .frame frame (packetOf C s frame)⟩]
          recorder, currentDmrStreamId, hadVoiceInCall, files } := by
  unfold emit
  dsimp only
  obtain ⟨recorder, currentDmrStreamId, hadVoiceInCall, files, hrecord⟩ :=
    recordCall_eq C { s with
      nextVoiceSend := if Bridge.isVoice frame then some (deadline s now + voiceFrameInterval) else none
      agc := (C.levels.applyAgc s.agc frame).1 } frame
      (C.levels.applyLimiter frame.keyup (C.levels.applyAgc s.agc frame).2) io
  rw [hrecord]
  exact ⟨recorder, currentDmrStreamId, hadVoiceInCall, files, rfl⟩

/-- All that one step does. -/
inductive Move (C : FmConfig α) (s : FmTask α) : FmAction → FmTask α → Prop where
  | offer (frame : AudioFrame) : Move C s (.offer frame) { s with audio := s.audio ++ [frame] }
  | announce (event : MetaEvent) : Move C s (.announce event) { s with metadata := s.metadata ++ [event] }
  | flag {a : FmAction} (audioClosed metadataClosed cancelled : Bool)
      (hinput : ∀ frame event, a ≠ .offer frame ∧ a ≠ .announce event) :
      Move C s a { s with audioClosed, metadataClosed, cancelled }
  | skip {event : MetaEvent} {metadata : List MetaEvent} {now : Instant} (hfm : s.fm = .select)
      (htake : s.metadata = event :: metadata) (hclock : s.clock ≤ now) (htext : textOf C event = none) :
      Move C s (.takeMetadata now) { s with metadata, clock := now }
  | text {event : MetaEvent} {metadata : List MetaEvent} {now : Instant} {text : String} (hfm : s.fm = .select)
      (htake : s.metadata = event :: metadata) (hclock : s.clock ≤ now) (htext : textOf C event = some text) :
      Move C s (.takeMetadata now)
        { s with metadata, clock := now, seq := s.seq + 1, sent := s.sent ++ [⟨now, .text s.seq text⟩] }
  | hold {frame : AudioFrame} {audio : List AudioFrame} {now : Instant} {io : RecordIo} (hfm : s.fm = .select)
      (htake : s.audio = frame :: audio) (hclock : s.clock ≤ now) (hvoice : Bridge.isVoice frame = true)
      (hearly : now < deadline s now) :
      Move C s (.takeAudio now io) { s with audio, fm := .pacing frame, clock := now }
  | emit {a : FmAction} {frame : AudioFrame} {audio : List AudioFrame} {now : Instant} {io : RecordIo}
      (ha : a = .takeAudio now io ∨ a = .wake now io) (hlive : s.fm ≠ .returned)
      (htake : s.fm.held ++ s.audio = frame :: audio) (hclock : s.clock ≤ now)
      (hdue : Bridge.isVoice frame = true → deadline s now ≤ now) :
      Move C s a { FmTask.emit C s now frame io with audio }
  | leave {io : RecordIo} (hlive : s.fm ≠ .returned) :
      Move C s (.leave io) { finalizeAgcOutCall s io.disk with fm := .returned }

theorem takeMetadata_move {C : FmConfig α} {s t : FmTask α} {now : Instant} (h : takeMetadata C s now = some t) :
    Move C s (.takeMetadata now) t := by
  unfold takeMetadata at h
  split at h
  · rename_i event metadata hfm htake
    split at h
    · cases h
    · rename_i hguard
      have hclock : s.clock ≤ now := Nat.not_lt.mp fun hlt => hguard (Or.inr hlt)
      split at h
      · rename_i htext
        cases h
        exact .skip hfm htake hclock htext
      · rename_i text htext
        cases h
        exact .text hfm htake hclock htext
  · cases h

theorem takeAudio_move {C : FmConfig α} {s t : FmTask α} {now : Instant} {io : RecordIo}
    (h : takeAudio C s now io = some t) : Move C s (.takeAudio now io) t := by
  unfold takeAudio at h
  split at h
  · rename_i frame audio hfm htake
    split at h
    · cases h
    · rename_i hguard
      have hclock : s.clock ≤ now := Nat.not_lt.mp fun hlt => hguard (Or.inr hlt)
      split at h
      · rename_i hearly
        cases h
        exact .hold hfm htake hclock hearly.1 hearly.2
      · rename_i hearly
        cases h
        refine .emit (Or.inl rfl) (by rw [hfm]; exact nofun) (by rw [hfm]; exact htake) hclock fun hvoice => ?_
        exact Nat.not_lt.mp fun hlt => hearly ⟨hvoice, hlt⟩
  · cases h

theorem wake_move {C : FmConfig α} {s t : FmTask α} {now : Instant} {io : RecordIo} (h : wake C s now io = some t) :
    Move C s (.wake now io) t := by
  unfold wake at h
  split at h
  · rename_i frame hfm
    split at h
    · cases h
    · rename_i hguard
      have hclock : s.clock ≤ now := Nat.not_lt.mp fun hlt => hguard (Or.inr (Or.inl hlt))
      have hdue : deadline s now ≤ now := Nat.not_lt.mp fun hlt => hguard (Or.inr (Or.inr hlt))
      have hkeep : FmTask.emit C s now frame io = { FmTask.emit C s now frame io with audio := s.audio } := by
        obtain ⟨_, _, _, _, hemit⟩ := emit_eq C s now frame io
        rw [hemit]
      cases h
      rw [hkeep]
      exact .emit (Or.inr rfl) (by rw [hfm]; exact nofun) (by rw [hfm]; rfl) hclock fun _ => hdue
  · cases h

theorem step_move {C : FmConfig α} {s t : FmTask α} {a : FmAction} (h : step C s a = some t) : Move C s a t := by
  cases a with
  | offer frame =>
    simp only [step, Option.ite_none_left_eq_some, Option.some.injEq] at h
    obtain ⟨-, rfl⟩ := h
    exact .offer frame
  | announce event =>
    simp only [step, Option.ite_none_left_eq_some, Option.some.injEq] at h
    obtain ⟨-, rfl⟩ := h
    exact .announce event
  | closeAudio =>
    cases h
    exact .flag true s.metadataClosed s.cancelled fun _ _ => ⟨nofun, nofun⟩
  | closeMetadata =>
    cases h
    exact .flag s.audioClosed true s.cancelled fun _ _ => ⟨nofun, nofun⟩
  | cancel =>
    cases h
    exact .flag s.audioClosed s.metadataClosed true fun _ _ => ⟨nofun, nofun⟩
  | takeMetadata now => exact takeMetadata_move h
  | takeAudio now io => exact takeAudio_move h
  | wake now io => exact wake_move h
  | leave io =>
    simp only [step, FmTask.leave, Option.ite_none_right_eq_some, Option.some.injEq] at h
    obtain ⟨⟨hlive, -⟩, rfl⟩ := h
    exact .leave hlive

end FmTask

end DmrBridge
