import DmrBridge.FmTask

/-!
# What is on its way to the FM peer

Over every run of `tx_task`: the packets with their numbers, the frames and texts in them, and the
times they leave at.
-/

open Run

namespace DmrBridge

variable {σ φ α : Type}

namespace FmPacket

/-- The packet as its reader has it. -/
def read : FmPacket → Usrp.Frame
  | .text seq payload =>
    { seq, keyup := false, talkgroup := 0, frameType := .text, audio := none, text := some payload.toUTF8.data.toList }
  | .frame _ packet => packet

def payload : FmPacket → Option String
  | .text _ payload => some payload
  | .frame .. => none

def levelled : FmPacket → Option Levelled
  | .text .. => none
  | .frame _ packet => some ⟨packet.keyup, packet.audio⟩

/-- A frame's packet is a voice packet of the configured talkgroup. -/
def Framed (C : FmConfig α) : FmPacket → Prop
  | .text .. => True
  | .frame _ packet => packet.frameType = .voice ∧ packet.talkgroup = C.talkgroup ∧ packet.text = none

theorem read_seq (o : FmPacket) : o.read.seq = o.seq := by cases o <;> rfl

theorem parse_bytes {C : FmConfig α} {o : FmPacket} (h : o.Framed C) :
    Usrp.Frame.parse C.host (o.bytes C) C.byteSwap = .ok o.read := by
  cases o with
  | text seq payload => exact Usrp.parse_serializeText C.host C.byteSwap seq payload
  | frame source packet =>
    have hparse := Usrp.parse_serialize h.1 h.2.2 C.host C.host C.byteSwap C.byteSwap
    rw [if_pos (iff_of_true rfl rfl)] at hparse
    exact hparse

end FmPacket

namespace FmTask

/-! ## The packets -/

def offered (as : List FmAction) : List AudioFrame :=
  as.filterMap fun a => match a with
    | .offer frame => some frame
    | _ => none

def announced (as : List FmAction) : List MetaEvent :=
  as.filterMap fun a => match a with
    | .announce event => some event
    | _ => none

/-- The frames that went into the packets. -/
def frames (s : FmTask α) : List AudioFrame := s.sent.filterMap (·.packet.source)

def payloads (s : FmTask α) : List String := s.sent.filterMap (·.packet.payload)

structure Packets (C : FmConfig α) (agc : Option α) (s : FmTask α) : Prop where
  numbers : s.sent.map (·.packet.seq) = (List.range s.sent.length).map UInt32.ofNat
  next : s.seq = UInt32.ofNat s.sent.length
  framed : ∀ e ∈ s.sent, e.packet.Framed C
  levels : exec C.levels.level agc (frames s) = (s.agc, s.sent.filterMap (·.packet.levelled))

/-- A frame is in a packet, in hand or in the queue, and only the end of the task loses one. -/
def AudioFlow (past : List FmAction) (s : FmTask α) : Prop :=
  ∃ lost, frames s ++ lost ++ s.audio = offered past ∧ (s.fm ≠ .returned → lost = s.fm.held)

/-- An event is in a packet or in the queue, if it has a text. -/
def TextFlow (C : FmConfig α) (past : List FmAction) (s : FmTask α) : Prop :=
  ∃ events, events ++ s.metadata = announced past ∧ payloads s = events.filterMap (textOf C)

/-- A packet more carries the next number. -/
theorem numbers_snoc {sent : List Sent} {seq : UInt32} {time : Instant} {o : FmPacket}
    (h : sent.map (·.packet.seq) = (List.range sent.length).map UInt32.ofNat) (hnext : seq = UInt32.ofNat sent.length)
    (ho : o.seq = seq) :
    (sent ++ [(⟨time, o⟩ : Sent)]).map (·.packet.seq) =
        (List.range (sent ++ [(⟨time, o⟩ : Sent)]).length).map UInt32.ofNat ∧
      seq + 1 = UInt32.ofNat (sent ++ [(⟨time, o⟩ : Sent)]).length := by
  have hlength : (sent ++ [(⟨time, o⟩ : Sent)]).length = sent.length + 1 := List.length_append
  rw [hlength]
  constructor
  · rw [List.map_append, h, List.range_succ, List.map_append, List.map_singleton, List.map_singleton, ho, hnext]
  · rw [hnext, UInt32.ofNat_add]
    rfl

theorem packets_step {C : FmConfig α} {agc : Option α} {s t : FmTask α} {a : FmAction} (h : Packets C agc s)
    (hmove : Move C s a t) : Packets C agc t := by
  cases hmove with
  | offer frame => exact ⟨h.numbers, h.next, h.framed, h.levels⟩
  | announce event => exact ⟨h.numbers, h.next, h.framed, h.levels⟩
  | flag audioClosed metadataClosed cancelled hinput => exact ⟨h.numbers, h.next, h.framed, h.levels⟩
  | skip hfm htake hclock htext => exact ⟨h.numbers, h.next, h.framed, h.levels⟩
  | hold hfm htake hclock hvoice hearly => exact ⟨h.numbers, h.next, h.framed, h.levels⟩
  | @text event metadata now text hfm htake hclock htext =>
    obtain ⟨hnumbers, hnext⟩ := numbers_snoc h.numbers h.next (show (FmPacket.text s.seq text).seq = s.seq from rfl)
    refine ⟨hnumbers, hnext, ?_, ?_⟩
    · exact List.forall_mem_append.mpr ⟨h.framed, List.forall_mem_singleton.mpr trivial⟩
    · simpa [frames, List.filterMap_append, FmPacket.source, FmPacket.levelled] using h.levels
  | @emit _ frame audio now io ha hlive htake hclock hdue =>
    obtain ⟨recorder, currentDmrStreamId, hadVoiceInCall, files, hemit⟩ := emit_eq C s now frame io
    rw [hemit]
    obtain ⟨hnumbers, hnext⟩ :=
      numbers_snoc h.numbers h.next (show (FmPacket.frame frame (packetOf C s frame)).seq = s.seq from rfl)
    refine ⟨hnumbers, hnext, ?_, ?_⟩
    · exact List.forall_mem_append.mpr ⟨h.framed, List.forall_mem_singleton.mpr ⟨rfl, rfl, rfl⟩⟩
    · have hframes : (s.sent ++ [(⟨now, .frame frame (packetOf C s frame)⟩ : Sent)]).filterMap (·.packet.source) =
          frames s ++ [frame] := List.filterMap_append
      have hlevelled : (s.sent ++ [(⟨now, .frame frame (packetOf C s frame)⟩ : Sent)]).filterMap (·.packet.levelled) =
          s.sent.filterMap (·.packet.levelled) ++ (C.levels.level s.agc frame).2 := List.filterMap_append
      rw [frames, hframes, hlevelled, exec_snoc, h.levels]
      rfl
  | @leave io hlive =>
    obtain ⟨recorder, currentDmrStreamId, hadVoiceInCall, files, hfinal⟩ := finalizeAgcOutCall_eq s io.disk
    rw [hfinal]
    exact ⟨h.numbers, h.next, h.framed, h.levels⟩

theorem offered_snoc (past : List FmAction) (a : FmAction) : offered (past ++ [a]) = offered past ++ offered [a] :=
  List.filterMap_append

theorem announced_snoc (past : List FmAction) (a : FmAction) :
    announced (past ++ [a]) = announced past ++ announced [a] := List.filterMap_append

theorem audioFlow_step {C : FmConfig α} {past : List FmAction} {s t : FmTask α} {a : FmAction} (h : AudioFlow past s)
    (hmove : Move C s a t) : AudioFlow (past ++ [a]) t := by
  obtain ⟨lost, hlost, hheld⟩ := h
  unfold AudioFlow
  rw [offered_snoc, ← hlost]
  cases hmove with
  | offer frame => exact ⟨lost, (List.append_assoc ..).symm, hheld⟩
  | announce event => exact ⟨lost, (List.append_nil _).symm, hheld⟩
  | flag audioClosed metadataClosed cancelled hinput =>
    have hlast : offered [a] = [] := by
      cases a with
      | offer frame => exact absurd rfl (hinput frame .clear).1
      | _ => rfl
    rw [hlast, List.append_nil]
    exact ⟨lost, rfl, hheld⟩
  | skip hfm htake hclock htext => exact ⟨lost, (List.append_nil _).symm, hheld⟩
  | @text event metadata now text hfm htake hclock htext =>
    refine ⟨lost, ?_, hheld⟩
    simp [frames, offered, FmPacket.source]
  | @hold frame audio now io hfm htake hclock hvoice hearly =>
    refine ⟨[frame], ?_, fun _ => rfl⟩
    rw [hheld (by rw [hfm]; exact nofun), hfm, htake]
    simp [frames, offered, FmPhase.held]
  | @emit _ frame audio now io ha hlive htake hclock hdue =>
    have hlast : offered [a] = [] := by rcases ha with rfl | rfl <;> rfl
    obtain ⟨recorder, currentDmrStreamId, hadVoiceInCall, files, hemit⟩ := emit_eq C s now frame io
    rw [hemit, hlast, List.append_nil, List.append_assoc, hheld hlive, htake]
    refine ⟨[], ?_, fun _ => rfl⟩
    simp [frames, FmPacket.source]
  | @leave io hlive =>
    obtain ⟨recorder, currentDmrStreamId, hadVoiceInCall, files, hfinal⟩ := finalizeAgcOutCall_eq s io.disk
    rw [hfinal]
    exact ⟨lost, (List.append_nil _).symm, fun hend => absurd rfl hend⟩

theorem textFlow_step {C : FmConfig α} {past : List FmAction} {s t : FmTask α} {a : FmAction} (h : TextFlow C past s)
    (hmove : Move C s a t) : TextFlow C (past ++ [a]) t := by
  obtain ⟨events, hevents, htexts⟩ := h
  unfold TextFlow
  rw [announced_snoc, ← hevents]
  cases hmove with
  | offer frame => exact ⟨events, (List.append_nil _).symm, htexts⟩
  | announce event => exact ⟨events, (List.append_assoc ..).symm, htexts⟩
  | flag audioClosed metadataClosed cancelled hinput =>
    have hlast : announced [a] = [] := by
      cases a with
      | announce event => exact absurd rfl (hinput ⟨false, none, none⟩ event).2
      | _ => rfl
    rw [hlast, List.append_nil]
    exact ⟨events, rfl, htexts⟩
  | @skip event metadata now hfm htake hclock htext =>
    refine ⟨events ++ [event], ?_, ?_⟩
    · rw [htake]
      simp [announced]
    · rw [List.filterMap_append, ← htexts, List.filterMap_cons_none htext, List.filterMap_nil, List.append_nil]
      rfl
  | @text event metadata now text hfm htake hclock htext =>
    refine ⟨events ++ [event], ?_, ?_⟩
    · rw [htake]
      simp [announced]
    · rw [List.filterMap_append, ← htexts, List.filterMap_cons_some htext, List.filterMap_nil]
      simp [payloads, FmPacket.payload]
  | hold hfm htake hclock hvoice hearly => exact ⟨events, (List.append_nil _).symm, htexts⟩
  | @emit _ frame audio now io ha hlive htake hclock hdue =>
    have hlast : announced [a] = [] := by rcases ha with rfl | rfl <;> rfl
    obtain ⟨recorder, currentDmrStreamId, hadVoiceInCall, files, hemit⟩ := emit_eq C s now frame io
    rw [hemit, hlast, List.append_nil]
    refine ⟨events, rfl, ?_⟩
    rw [← htexts]
    simp [payloads, FmPacket.payload]
  | @leave io hlive =>
    obtain ⟨recorder, currentDmrStreamId, hadVoiceInCall, files, hfinal⟩ := finalizeAgcOutCall_eq s io.disk
    rw [hfinal]
    exact ⟨events, (List.append_nil _).symm, htexts⟩

/-! ## The transcript -/

/-- What a peer of the same settings reads. -/
def received (C : FmConfig α) (s : FmTask α) : List Usrp.Frame :=
  s.sent.filterMap fun e => (Usrp.Frame.parse C.host (e.packet.bytes C) C.byteSwap).toOption

theorem received_eq {C : FmConfig α} {s : FmTask α} (h : ∀ e ∈ s.sent, e.packet.Framed C) :
    received C s = s.sent.map (·.packet.read) := by
  rw [received, ← List.filterMap_eq_map]
  refine List.filterMap_congr fun e he => ?_
  rw [FmPacket.parse_bytes (h e he)]
  rfl

theorem voice_received {C : FmConfig α} {sent : List Sent} (h : ∀ e ∈ sent, e.packet.Framed C) :
    ((sent.map (·.packet.read)).filter (·.frameType = .voice)).map (fun f => (f.keyup, f.talkgroup, f.audio)) =
      (sent.filterMap (·.packet.levelled)).map fun l => (l.keyup, C.talkgroup, l.samples) := by
  induction sent with
  | nil => rfl
  | cons e sent ih =>
    obtain ⟨he, hsent⟩ := List.forall_mem_cons.mp h
    obtain ⟨time, packet⟩ := e
    cases packet with
    | text seq payload => exact ih hsent
    | frame source packet =>
      obtain ⟨htype, htalkgroup, -⟩ := he
      show (((packet :: sent.map (·.packet.read)).filter (·.frameType = .voice)).map fun f =>
        (f.keyup, f.talkgroup, f.audio)) =
        (packet.keyup, C.talkgroup, packet.audio) :: _
      rw [List.filter_cons, if_pos (decide_eq_true htype), List.map_cons, ih hsent, htalkgroup]

theorem text_received {C : FmConfig α} {sent : List Sent} (h : ∀ e ∈ sent, e.packet.Framed C) :
    (sent.map (·.packet.read)).filterMap (·.text) =
      (sent.filterMap (·.packet.payload)).map fun text => text.toUTF8.data.toList := by
  induction sent with
  | nil => rfl
  | cons e sent ih =>
    obtain ⟨he, hsent⟩ := List.forall_mem_cons.mp h
    obtain ⟨time, packet⟩ := e
    cases packet with
    | text seq payload => exact congrArg _ (ih hsent)
    | frame source packet =>
      have htext : packet.text = none := he.2.2
      show (packet :: sent.map (·.packet.read)).filterMap (·.text) = _
      rw [List.filterMap_cons_none htext]
      exact ih hsent

structure Transcript (C : FmConfig α) (agc : Option α) (past : List FmAction) (s : FmTask α) : Prop where
  packets : Packets C agc s
  audio : AudioFlow past s
  texts : TextFlow C past s

theorem transcript_start (C : FmConfig α) (agc : Option α) : Transcript C agc [] (start agc) where
  packets := ⟨rfl, rfl, nofun, rfl⟩
  audio := ⟨[], rfl, fun _ => rfl⟩
  texts := ⟨[], rfl, rfl⟩

theorem transcript_runs {C : FmConfig α} {agc : Option α} {as : List FmAction} {s : FmTask α}
    (h : runs (step C) (start agc) as = some s) : Transcript C agc as s := by
  have hall : Along (step C) (fun _ _ => True) (start agc) as := along_of_forall (fun _ _ => trivial) _ as
  refine runs_invariant_past (fun past s a t _ hinv _ hstep => ?_) (transcript_start C agc) hall h
  have hmove := step_move hstep
  exact ⟨packets_step hinv.packets hmove, audioFlow_step hinv.audio hmove, textFlow_step hinv.texts hmove⟩

/-- Over every run the packets handed to the socket are numbered from 0 on and carry each frame of the queue in
its turn, levelled, and the texts of the events. Only a task that ends leaves a frame it took in no packet. -/
theorem transcript (C : FmConfig α) (agc : Option α) (as : List FmAction) (s : FmTask α)
    (h : runs (step C) (start agc) as = some s) :
    (received C s).map (·.seq) = (List.range s.sent.length).map UInt32.ofNat ∧
      (∃ lost, frames s ++ lost ++ s.audio = offered as ∧ (s.fm ≠ .returned → lost = s.fm.held)) ∧
      ((received C s).filter (·.frameType = .voice)).map (fun f => (f.keyup, f.talkgroup, f.audio)) =
        (exec C.levels.level agc (frames s)).2.map (fun l => (l.keyup, C.talkgroup, l.samples)) ∧
      ∃ events, events ++ s.metadata = announced as ∧
        (received C s).filterMap (·.text) = (events.filterMap (textOf C)).map fun text => text.toUTF8.data.toList := by
  obtain ⟨hpackets, haudio, events, hevents, htexts⟩ := transcript_runs h
  rw [received_eq hpackets.framed]
  refine ⟨?_, haudio, ?_, events, hevents, ?_⟩
  · rw [List.map_map, ← hpackets.numbers]
    exact List.map_congr_left fun e _ => e.packet.read_seq
  · rw [voice_received hpackets.framed, hpackets.levels]
  · rw [text_received hpackets.framed, ← htexts]
    rfl

def fmSample : FmConfig Unit where
  host := .little
  byteSwap := false
  talkgroup := 91
  levels := { process := fun agc pcm => (agc, pcm), reset := id, limiter := none }
  toJson := fun _ => none
  recordDir := true

/-- A gain that grows by one from frame to frame, and a limiter at 10. -/
def levelSample : FmConfig Int16 :=
  { fmSample with
    levels :=
      { process := fun gain pcm => (gain + 1, pcm.map (gain * ·))
        reset := fun _ => 2
        limiter := some (·.map (min 10)) } }

/-- Two frames of a call, its end, and a text between its announcement and them. -/
def levelledCall : List FmAction :=
  [.announce .clear, .offer ⟨true, some (.replicate 160 4), none⟩, .takeMetadata 3, .takeAudio 3 ⟨true, 160, ⟨0, 0, 0⟩⟩,
    .offer ⟨true, some (.replicate 160 4), none⟩, .takeAudio 23 ⟨true, 160, ⟨0, 0, 0⟩⟩, .offer ⟨false, none, none⟩,
    .takeAudio 30 ⟨true, 0, ⟨0, 0, 0⟩⟩]

theorem transcript_sample :
    ∃ s, runs (step levelSample) (start (some 2)) levelledCall = some s ∧
      (received levelSample s).map (·.seq) = [0, 1, 2, 3] ∧
      ((received levelSample s).filter (·.frameType = .voice)).map (fun f => (f.keyup, f.talkgroup, f.audio)) =
        [(true, 91, some (.replicate 160 8)), (true, 91, some (.replicate 160 10)), (false, 91, none)] ∧
      (received levelSample s).filterMap (·.text) = [[0x7b, 0x7d]] := by
  obtain ⟨s, hrun⟩ : ∃ s, runs (step levelSample) (start (some 2)) levelledCall = some s := ⟨_, rfl⟩
  have hends :
      (runs (step levelSample) (start (some 2)) levelledCall).map (fun s => (frames s, s.sent.length, s.metadata)) =
        some ([⟨true, some (.replicate 160 4), none⟩, ⟨true, some (.replicate 160 4), none⟩, ⟨false, none, none⟩],
          4, []) := rfl
  rw [hrun, Option.map_some, Option.some.injEq, Prod.mk.injEq, Prod.mk.injEq] at hends
  obtain ⟨hframes, hcount, hempty⟩ := hends
  obtain ⟨hnumbers, -, hlevels, events, hevents, htexts⟩ := transcript levelSample (some 2) levelledCall s hrun
  rw [hcount] at hnumbers
  rw [hframes] at hlevels
  rw [hempty, List.append_nil] at hevents
  subst hevents
  refine ⟨s, hrun, hnumbers, hlevels.trans ?_, htexts⟩
  simp [exec, Levels.level, Levels.applyAgc, Levels.applyLimiter, levelSample, fmSample]
  decide

/-! ## The task in the bridge -/

/-- The bridge with this task as its FM side. -/
def onto (s : FmTask α) (b : Bridge σ φ) : Bridge σ φ :=
  { b with audioOut := s.audio, fm := s.fm, fmSent := frames s, cancelled := s.cancelled }

/-- The step of the bridge that a turn of the task is. A text is none. -/
def bridgeStep (s : FmTask α) : FmAction → List BridgeAction
  | .takeAudio now _ => [.fmTake (now < deadline s now)]
  | .wake .. => [.fmWake]
  | .leave _ => [.fmStop]
  | .cancel => [.cancel]
  | _ => []

theorem frames_emit (C : FmConfig α) (s : FmTask α) (now : Instant) (frame : AudioFrame) (io : RecordIo) :
    frames (emit C s now frame io) = frames s ++ [frame] := by
  obtain ⟨recorder, currentDmrStreamId, hadVoiceInCall, files, hemit⟩ := emit_eq C s now frame io
  rw [hemit]
  exact List.filterMap_append

theorem onto_text {s t : FmTask α} {b : Bridge σ φ} (time : Instant) (seq : UInt32) (text : String)
    (hsent : t.sent = s.sent ++ [⟨time, .text seq text⟩])
    (hsame : t.audio = s.audio ∧ t.fm = s.fm ∧ t.cancelled = s.cancelled) : t.onto b = s.onto b := by
  rw [onto, onto, frames, hsent, List.filterMap_append, hsame.1, hsame.2.1, hsame.2.2]
  exact congrArg (fun fmSent => { b with audioOut := s.audio, fm := s.fm, fmSent, cancelled := s.cancelled })
    (List.append_nil _)

theorem onto_eq {t : FmTask α} {b : Bridge σ φ} {fmSent : List AudioFrame} (h : frames t = fmSent) :
    t.onto b = { b with audioOut := t.audio, fm := t.fm, fmSent, cancelled := t.cancelled } := by
  rw [onto, h]

theorem runs_single {S A : Type} {step : S → A → Option S} {s t : S} {a : A} (h : step s a = some t) :
    runs step s [a] = some t := by
  rw [runs_cons, h]
  rfl

theorem onto_takeAudio {C : FmConfig α} {P : Params σ φ} {b : Bridge σ φ} {s t : FmTask α} {now : Instant}
    {io : RecordIo} (h : takeAudio C s now io = some t) :
    Bridge.step P (s.onto b) (.fmTake (now < deadline s now)) = some (t.onto b) := by
  unfold takeAudio at h
  split at h
  · rename_i frame audio hfm haudio
    split at h
    · cases h
    · rename_i hguard
      have hlive : ¬ s.cancelled = true := fun hstop => hguard (Or.inl hstop)
      simp only [Bridge.step, Bridge.fmTake, onto, hfm, haudio, if_neg hlive]
      by_cases hearly : Bridge.isVoice frame = true ∧ now < deadline s now
      · rw [if_pos hearly] at h
        cases h
        rw [if_pos ⟨decide_eq_true hearly.2, hearly.1⟩]
        rfl
      · rw [if_neg hearly] at h
        cases h
        have hturn : ¬ (decide (now < deadline s now) = true ∧ Bridge.isVoice frame = true) := fun hwait =>
          hearly ⟨hwait.2, of_decide_eq_true hwait.1⟩
        have hframes : frames { emit C s now frame io with audio } = frames s ++ [frame] := frames_emit C s now frame io
        obtain ⟨recorder, currentDmrStreamId, hadVoiceInCall, files, hemit⟩ := emit_eq C s now frame io
        show _ = some (onto { emit C s now frame io with audio } b)
        rw [if_neg hturn, onto_eq hframes, hemit]
  · cases h

theorem onto_wake {C : FmConfig α} {P : Params σ φ} {b : Bridge σ φ} {s t : FmTask α} {now : Instant} {io : RecordIo}
    (h : wake C s now io = some t) : Bridge.step P (s.onto b) .fmWake = some (t.onto b) := by
  unfold wake at h
  split at h
  · rename_i frame hfm
    split at h
    · cases h
    · rename_i hguard
      have hlive : ¬ s.cancelled = true := fun hstop => hguard (Or.inl hstop)
      simp only [Bridge.step, Bridge.fmWake, onto, hfm, if_neg hlive]
      cases h
      obtain ⟨recorder, currentDmrStreamId, hadVoiceInCall, files, hemit⟩ := emit_eq C s now frame io
      show _ = some (onto (emit C s now frame io) b)
      rw [onto_eq (frames_emit C s now frame io), hemit]
  · cases h

/-- With its own clock, counter, levels and recorder the task does what the bridge says of it. -/
theorem onto_step {C : FmConfig α} {P : Params σ φ} {b : Bridge σ φ} {s t : FmTask α} {a : FmAction}
    (hinput : ∀ frame, a ≠ .offer frame) (hleave : ∀ io, a = .leave io → s.cancelled = true)
    (h : step C s a = some t) : runs (Bridge.step P) (s.onto b) (bridgeStep s a) = some (t.onto b) := by
  cases a with
  | offer frame => exact absurd rfl (hinput frame)
  | announce event =>
    simp only [step, Option.ite_none_left_eq_some, Option.some.injEq] at h
    obtain ⟨-, rfl⟩ := h
    rfl
  | closeAudio => cases h; rfl
  | closeMetadata => cases h; rfl
  | cancel => cases h; rfl
  | takeMetadata now =>
    simp only [step, takeMetadata] at h
    split at h
    · split at h
      · cases h
      split at h
      · cases h
        rfl
      · rename_i text htext
        cases h
        refine congrArg some (onto_text now s.seq text ?_ ?_).symm
        · rfl
        · exact ⟨rfl, rfl, rfl⟩
    · cases h
  | takeAudio now io => exact runs_single (onto_takeAudio h)
  | wake now io => exact runs_single (onto_wake h)
  | leave io =>
    have hstop := hleave io rfl
    simp only [step, FmTask.leave, Option.ite_none_right_eq_some, Option.some.injEq] at h
    obtain ⟨⟨hlive, -⟩, rfl⟩ := h
    refine runs_single ?_
    obtain ⟨recorder, currentDmrStreamId, hadVoiceInCall, files, hfinal⟩ := finalizeAgcOutCall_eq s io.disk
    rw [hfinal]
    exact if_pos ⟨hlive, hstop⟩

/-! ## The pace -/

/-- The time of the first voice frame since the last frame that was none, and how many there were. -/
def spurtNext (spurt : Option (Instant × Nat)) (e : Sent) : Option (Instant × Nat) :=
  match e.packet.source with
  | none => spurt
  | some frame =>
    if Bridge.isVoice frame then
      match spurt with
      | none => some (e.time, 1)
      | some (first, count) => some (first, count + 1)
    else none

def spurt (sent : List Sent) : Option (Instant × Nat) := sent.foldl spurtNext none

/-- When the frame after `count` others is due. -/
def due (first : Instant) (count : Nat) : Instant := first + count * voiceFrameInterval

theorem spurt_snoc (sent : List Sent) (e : Sent) :
    spurt (sent ++ [e]) = spurtNext (spurt sent) e := List.foldl_concat ..

structure Paced (s : FmTask α) : Prop where
  anchor : s.nextVoiceSend = (spurt s.sent).map fun (first, count) => due first count
  sent : ∀ before e after frame, s.sent = before ++ e :: after → e.packet.source = some frame →
    Bridge.isVoice frame = true → ∀ first count, spurt before = some (first, count) → due first count ≤ e.time
  held : ∀ frame, s.fm = .pacing frame → s.nextVoiceSend.isSome

/-- The deadline of a voice frame is that of its place in the spurt. -/
theorem deadline_spurt {s : FmTask α} (h : Paced s) (now : Instant) :
    deadline s now = match spurt s.sent with
      | none => now
      | some (first, count) => due first count := by
  rw [deadline, h.anchor]
  cases spurt s.sent with
  | none => rfl
  | some place => rfl

theorem sent_snoc {sent : List Sent} {e : Sent} {P : List Sent → Sent → Prop}
    (h : ∀ before e after, sent = before ++ e :: after → P before e) (he : P sent e) :
    ∀ before e' after, sent ++ [e] = before ++ e' :: after → P before e' := by
  intro before e' after hsplit
  rcases List.eq_nil_or_concat after with rfl | ⟨after', last, rfl⟩
  · obtain ⟨rfl, hlast⟩ := List.append_inj' hsplit rfl
    cases hlast
    exact he
  · have hshift : sent ++ [e] = (before ++ e' :: after') ++ [last] := by simpa using hsplit
    exact h before e' after' (List.append_inj' hshift rfl).1

theorem paced_step {C : FmConfig α} {s t : FmTask α} {a : FmAction} (h : Paced s) (hmove : Move C s a t) : Paced t := by
  cases hmove with
  | offer frame => exact ⟨h.anchor, h.sent, h.held⟩
  | announce event => exact ⟨h.anchor, h.sent, h.held⟩
  | flag audioClosed metadataClosed cancelled hinput => exact ⟨h.anchor, h.sent, h.held⟩
  | skip hfm htake hclock htext => exact ⟨h.anchor, h.sent, h.held⟩
  | @text event metadata now text hfm htake hclock htext =>
    refine ⟨?_, ?_, h.held⟩
    · rw [spurt_snoc]
      exact h.anchor
    · intro before e after frame hsplit
      refine sent_snoc (P := fun before e => e.packet.source = some frame → Bridge.isVoice frame = true →
        ∀ first count, spurt before = some (first, count) → due first count ≤ e.time) ?_ ?_ before e after hsplit
      · exact fun before e after hsplit => h.sent before e after frame hsplit
      · exact fun hsource => absurd hsource (by simp [FmPacket.source])
  | @hold frame audio now io hfm htake hclock hvoice hearly =>
    refine ⟨h.anchor, h.sent, fun _ _ => ?_⟩
    show s.nextVoiceSend.isSome = true
    -- Without a frame before it, it would have been due at once.
    rw [deadline] at hearly
    cases hnext : s.nextVoiceSend with
    | none =>
      rw [hnext] at hearly
      exact absurd hearly (Nat.lt_irrefl now)
    | some next => rfl
  | @emit _ frame audio now io ha hlive htake hclock hdue =>
    obtain ⟨recorder, currentDmrStreamId, hadVoiceInCall, files, hemit⟩ := emit_eq C s now frame io
    rw [hemit]
    refine ⟨?_, ?_, nofun⟩
    · rw [spurt_snoc]
      show (if Bridge.isVoice frame then some (deadline s now + voiceFrameInterval) else none) = _
      by_cases hvoice : Bridge.isVoice frame = true
      · rw [if_pos hvoice, deadline_spurt h]
        cases hplace : spurt s.sent with
        | none => simp [spurtNext, FmPacket.source, hvoice, due]
        | some place =>
          obtain ⟨first, count⟩ := place
          simp only [spurtNext, FmPacket.source, hvoice, due, if_true, Option.map_some, Nat.add_mul, Nat.one_mul,
            Nat.add_assoc]
      · rw [if_neg hvoice]
        simp [spurtNext, FmPacket.source, hvoice]
    · intro before e after source hsplit
      refine sent_snoc (P := fun before e => e.packet.source = some source → Bridge.isVoice source = true →
        ∀ first count, spurt before = some (first, count) → due first count ≤ e.time) ?_ ?_ before e after hsplit
      · exact fun before e after hsplit => h.sent before e after source hsplit
      · intro hsource hvoice first count hplace
        cases hsource
        have hlate := hdue hvoice
        rwa [deadline_spurt h, hplace] at hlate
  | @leave io hlive =>
    obtain ⟨recorder, currentDmrStreamId, hadVoiceInCall, files, hfinal⟩ := finalizeAgcOutCall_eq s io.disk
    rw [hfinal]
    exact ⟨h.anchor, h.sent, nofun⟩

theorem paced_runs {C : FmConfig α} {agc : Option α} {as : List FmAction} {s : FmTask α}
    (h : runs (step C) (start agc) as = some s) : Paced s := by
  have hstart : Paced (start agc) := ⟨rfl, fun before e after _ hsplit => by simp [start] at hsplit, nofun⟩
  exact runs_keep (fun s a t hs hstep => paced_step hs (step_move hstep)) hstart h

/-- The voice frames of a spurt leave 20 ms apart, counted from the first: none before its turn, and none waits
past it, however late the ones before were and whatever texts are in between. -/
theorem paced (C : FmConfig α) (agc : Option α) (as : List FmAction) (s : FmTask α)
    (h : runs (step C) (start agc) as = some s) :
    (∀ before e after frame, s.sent = before ++ e :: after → e.packet.source = some frame →
      Bridge.isVoice frame = true → ∀ first count, spurt before = some (first, count) → due first count ≤ e.time) ∧
    (∀ frame, s.fm = .pacing frame → ∃ first count, spurt s.sent = some (first, count) ∧
      ∀ now io, s.clock ≤ now → s.cancelled = false →
        ((step C s (.wake now io)).isSome = true ↔ due first count ≤ now)) ∧
    ∀ frame audio, s.fm = .select → s.audio = frame :: audio → Bridge.isVoice frame = true →
      ∀ now io, s.clock ≤ now → s.cancelled = false → ∃ t, step C s (.takeAudio now io) = some t ∧
        (t.fm = .pacing frame ↔ ∃ first count, spurt s.sent = some (first, count) ∧ now < due first count) := by
  have hpaced := paced_runs h
  refine ⟨hpaced.sent, ?_, ?_⟩
  · intro frame hfm
    have hheld := hpaced.held frame hfm
    have hdeadline := deadline_spurt hpaced
    rw [hpaced.anchor] at hheld
    cases hplace : spurt s.sent with
    | none =>
      rw [hplace] at hheld
      cases hheld
    | some place =>
      obtain ⟨first, count⟩ := place
      refine ⟨first, count, rfl, fun now io hclock hlive => ?_⟩
      have hdue : deadline s now = due first count := by rw [hdeadline, hplace]
      by_cases hwait : now < due first count
      · simp only [step, wake, hfm, hdue, if_pos (Or.inr (Or.inr hwait))]
        exact iff_of_false Bool.false_ne_true (Nat.not_le.mpr hwait)
      · have hguard : ¬ (s.cancelled = true ∨ now < s.clock ∨ now < due first count) := by
          rw [hlive]
          rintro (hstop | hback | hearly)
          · cases hstop
          · exact Nat.not_le.mpr hback hclock
          · exact hwait hearly
        simp only [step, wake, hfm, hdue, if_neg hguard]
        exact iff_of_true rfl (Nat.not_lt.mp hwait)
  · intro frame audio hfm haudio hvoice now io hclock hlive
    have hguard : ¬ (s.cancelled = true ∨ now < s.clock) := by
      rw [hlive]
      simpa using hclock
    have hdeadline := deadline_spurt hpaced now
    simp only [step, takeAudio, hfm, haudio, if_neg hguard, hvoice, true_and]
    by_cases hwait : now < deadline s now
    · rw [if_pos hwait]
      refine ⟨_, rfl, iff_of_true rfl ?_⟩
      cases hplace : spurt s.sent with
      | none =>
        rw [hdeadline, hplace] at hwait
        exact absurd hwait (Nat.lt_irrefl now)
      | some place =>
        rw [hdeadline, hplace] at hwait
        exact ⟨place.1, place.2, rfl, hwait⟩
    · rw [if_neg hwait]
      obtain ⟨recorder, currentDmrStreamId, hadVoiceInCall, files, hemit⟩ := emit_eq C s now frame io
      rw [hemit]
      refine ⟨_, rfl, iff_of_false FmPhase.noConfusion ?_⟩
      rintro ⟨first, count, hplace, hearly⟩
      rw [hdeadline, hplace] at hwait
      exact hwait hearly

/-- The second frame comes late, and the third is still due 40 ms after the first. -/
theorem paced_sample :
    ∃ s, runs (step fmSample) (start none)
        [.offer ⟨true, some silence, none⟩, .takeAudio 5 ⟨true, 160, ⟨0, 0, 0⟩⟩, .offer ⟨true, some silence, none⟩,
          .takeAudio 38 ⟨true, 160, ⟨0, 0, 0⟩⟩, .offer ⟨true, some silence, none⟩,
          .takeAudio 40 ⟨true, 160, ⟨0, 0, 0⟩⟩] = some s ∧
      ∃ first count, spurt s.sent = some (first, count) ∧
        ((step fmSample s (.wake 45 ⟨true, 160, ⟨0, 0, 0⟩⟩)).isSome = true ↔ due first count ≤ 45) := by
  refine ⟨_, rfl, ?_⟩
  obtain ⟨first, count, hplace, hwake⟩ := (paced fmSample none
    [.offer ⟨true, some silence, none⟩, .takeAudio 5 ⟨true, 160, ⟨0, 0, 0⟩⟩, .offer ⟨true, some silence, none⟩,
      .takeAudio 38 ⟨true, 160, ⟨0, 0, 0⟩⟩, .offer ⟨true, some silence, none⟩,
      .takeAudio 40 ⟨true, 160, ⟨0, 0, 0⟩⟩] _ rfl).2.1 _ rfl
  exact ⟨first, count, hplace, hwake 45 _ (by decide) rfl⟩

end FmTask

end DmrBridge
