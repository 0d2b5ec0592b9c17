import DmrBridge.FmTranscript

/-!
# The recordings of what the FM peer hears

`tx_task` opens a recorder with the first voice frame of a call and drops it with the unkey. A file is
that of one call, of the samples that went on the wire.
-/

open Run

namespace DmrBridge

variable {α : Type}

/-- One call: its stream, and its packets as the recorder got them. -/
structure FmCall where
  stream : UInt32
  writes : List Recording.Take

/-- The call with a packet more. The first names the stream. -/
def FmCall.add (stream : Option UInt32) (write : Recording.Take) : Option FmCall → FmCall
  | some call => { call with writes := call.writes ++ [write] }
  | none => ⟨stream.getD 0, [write]⟩

/-- What the disk makes of a frame in this turn. -/
def FmAction.io : FmAction → RecordIo
  | .takeAudio _ io | .wake _ io => io
  | _ => ⟨false, 0, ⟨0, 0, 0⟩⟩

namespace FmTask

/-- The packets of a step, with what the disk made of them. -/
def written (C : FmConfig α) (s : FmTask α) (log : List (Sent × RecordIo)) (a : FmAction) : List (Sent × RecordIo) :=
  log ++ (((step C s a).elim [] (·.sent)).drop s.sent.length).map (·, a.io)

/-- The transcript of a run, with what the disk made of each packet. -/
def writeLog (C : FmConfig α) (agc : Option α) (as : List FmAction) : List (Sent × RecordIo) :=
  history (step C) (written C) (start agc) [] as

/-- The calls that are over, and the one that is not. A packet without its key ends a call. -/
def callNext (calls : List FmCall × Option FmCall) (e : Sent × RecordIo) : List FmCall × Option FmCall :=
  match e.1.packet with
  | .text .. => calls
  | .frame source packet =>
    if packet.keyup then
      match packet.audio with
      | some pcm => (calls.1, some (FmCall.add source.dmrStreamId ⟨pcm.toList, e.2.taken, e.2.disk⟩ calls.2))
      | none => calls
    else (calls.1 ++ calls.2.toList, none)

def calls (log : List (Sent × RecordIo)) : List FmCall × Option FmCall := log.foldl callNext ([], none)

/-- The end of the task ends the call. -/
def callsOver (s : FmTask α) (log : List (Sent × RecordIo)) : List FmCall :=
  if s.fm = .returned then (calls log).1 ++ (calls log).2.toList else (calls log).1

structure FileOf (call : FmCall) (f : UInt32 × Recording) : Prop where
  stream : f.1 = call.stream
  recorded : ∃ disk, f.2 = (call.writes.foldl Recording.record (.recording .create)).drop disk

/-- The recorder has the call that is open. -/
structure InCall (call : Option FmCall) (s : FmTask α) : Prop where
  voice : s.hadVoiceInCall = call.isSome
  stream : ∀ c, call = some c → s.currentDmrStreamId.getD 0 = c.stream
  recorder : ∀ c r, call = some c → s.recorder = some r → r = c.writes.foldl Recording.record (.recording .create)

/-- The files are those of some of the calls, in turn. -/
def FilesOf (ended : List FmCall) (s : FmTask α) : Prop :=
  ∃ recorded, recorded.Sublist ended ∧ List.Forall₂ FileOf recorded s.files

/-! ## One frame -/

/-- A voice frame goes into the call, or opens it. -/
theorem recordCall_voice {C : FmConfig α} {call : Option FmCall} {s : FmTask α} {frame : AudioFrame} (io : RecordIo)
    (h : InCall call s) (hkey : frame.keyup = true) (pcm : PcmFrame) :
    InCall (some (FmCall.add frame.dmrStreamId ⟨pcm.toList, io.taken, io.disk⟩ call))
        (recordCall C s frame (some pcm) io) ∧
      (recordCall C s frame (some pcm) io).files = s.files := by
  unfold recordCall
  rw [if_pos hkey]
  dsimp only
  rw [h.voice]
  cases call with
  | none =>
    simp only [Option.isSome_none, Bool.false_eq_true, if_false]
    refine ⟨⟨rfl, fun c hc => by cases hc; rfl, fun c r hc hr => ?_⟩, trivial⟩
    cases hc
    unfold openCallRecorder at hr
    split at hr
    · cases hr
      rfl
    · cases hr
  | some call =>
    simp only [Option.isSome_some, if_true]
    refine ⟨⟨rfl, fun c hc => by cases hc; exact h.stream call rfl, fun c r hc hr => ?_⟩, trivial⟩
    cases hc
    obtain ⟨r', hr', rfl⟩ := Option.map_eq_some_iff.mp hr
    rw [h.recorder call r' rfl hr', FmCall.add, List.foldl_append]
    rfl

/-- The file of a call that ends. -/
theorem finalize_files {ended : List FmCall} {call : Option FmCall} {s : FmTask α} (disk : Disk)
    (h : InCall call s) (hfiles : FilesOf ended s) :
    InCall none (finalizeAgcOutCall s disk) ∧ FilesOf (ended ++ call.toList) (finalizeAgcOutCall s disk) := by
  obtain ⟨recorded, hsub, hall⟩ := hfiles
  unfold finalizeAgcOutCall
  rw [h.voice]
  cases call with
  | none =>
    simp only [Option.isSome_none, Bool.false_eq_true, if_false]
    refine ⟨h, recorded, ?_, hall⟩
    rw [Option.toList_none, List.append_nil]
    exact hsub
  | some call =>
    simp only [Option.isSome_some, if_true]
    refine ⟨⟨rfl, nofun, nofun⟩, ?_⟩
    cases hrec : s.recorder with
    | none =>
      refine ⟨recorded, hsub.trans (List.sublist_append_left ended _), ?_⟩
      simpa using hall
    | some r =>
      have heq := h.recorder call r rfl hrec
      refine ⟨recorded ++ [call], hsub.append (List.Sublist.refl _), ?_⟩
      exact List.rel_append hall (.cons ⟨h.stream call rfl, disk, by rw [heq]⟩ .nil)

/-- The recorder does to its call what the packet of the frame does. -/
theorem recordCall_packet {C : FmConfig α} {calls : List FmCall × Option FmCall} {s : FmTask α} {frame : AudioFrame}
    (io : RecordIo) (packet : Usrp.Frame) (time : Instant) (h : InCall calls.2 s) (hfiles : FilesOf calls.1 s)
    (hkey : packet.keyup = frame.keyup) :
    FilesOf (callNext calls (⟨time, .frame frame packet⟩, io)).1 (recordCall C s frame packet.audio io) ∧
      InCall (callNext calls (⟨time, .frame frame packet⟩, io)).2 (recordCall C s frame packet.audio io) := by
  obtain ⟨ended, call⟩ := calls
  by_cases hkeyed : frame.keyup = true
  · cases haudio : packet.audio with
    | none =>
      have hsame : recordCall C s frame none io = s := by rw [recordCall, if_pos hkeyed]
      have hnext : callNext (ended, call) (⟨time, .frame frame packet⟩, io) = (ended, call) := by
        simp [callNext, hkey, hkeyed, haudio]
      rw [hsame, hnext]
      exact ⟨hfiles, h⟩
    | some pcm =>
      obtain ⟨hcall, hsame⟩ := recordCall_voice (C := C) io h hkeyed pcm
      have hnext : callNext (ended, call) (⟨time, .frame frame packet⟩, io) =
          (ended, some (FmCall.add frame.dmrStreamId ⟨pcm.toList, io.taken, io.disk⟩ call)) := by
        simp [callNext, hkey, hkeyed, haudio]
      obtain ⟨recorded, hsub, hall⟩ := hfiles
      rw [hnext]
      refine ⟨⟨recorded, hsub, ?_⟩, hcall⟩
      rw [hsame]
      exact hall
  · have hend : recordCall C s frame packet.audio io = finalizeAgcOutCall s io.disk := if_neg hkeyed
    have hnext : callNext (ended, call) (⟨time, .frame frame packet⟩, io) = (ended ++ call.toList, none) := by
      simp [callNext, hkey, hkeyed]
    obtain ⟨hcall, hfinal⟩ := finalize_files io.disk h hfiles
    rw [hend, hnext]
    exact ⟨hfinal, hcall⟩

/-! ## A whole run -/

structure Recorded (log : List (Sent × RecordIo)) (s : FmTask α) : Prop where
  transcript : log.map (·.1) = s.sent
  files : FilesOf (callsOver s log) s
  inCall : s.fm ≠ .returned → InCall (calls log).2 s

theorem callsOver_live {s : FmTask α} (h : s.fm ≠ .returned) (log : List (Sent × RecordIo)) :
    callsOver s log = (calls log).1 := if_neg h

theorem calls_snoc (log : List (Sent × RecordIo)) (e : Sent × RecordIo) :
    calls (log ++ [e]) = callNext (calls log) e := List.foldl_concat ..

theorem written_eq {C : FmConfig α} {s t : FmTask α} {a : FmAction} {sent : List Sent} (log : List (Sent × RecordIo))
    (hstep : step C s a = some t) (hsent : t.sent = s.sent ++ sent) :
    written C s log a = log ++ sent.map (·, a.io) := by
  rw [written, hstep, Option.elim_some, hsent, List.drop_left]

/-- A step that leaves the recorder and its calls alone. -/
theorem recorded_quiet {log log' : List (Sent × RecordIo)} {s t : FmTask α} (h : Recorded log s)
    (hfm : t.fm = .returned ↔ s.fm = .returned) (htranscript : log'.map (·.1) = t.sent)
    (hcalls : calls log' = calls log) (hfiles : t.files = s.files)
    (hrecorder : t.recorder = s.recorder ∧ t.currentDmrStreamId = s.currentDmrStreamId ∧
      t.hadVoiceInCall = s.hadVoiceInCall) : Recorded log' t where
  transcript := htranscript
  files := by
    have hover : callsOver t log' = callsOver s log := by simp only [callsOver, hfm, hcalls]
    obtain ⟨recorded, hsub, hall⟩ := h.files
    refine ⟨recorded, ?_, ?_⟩
    · rw [hover]
      exact hsub
    · rw [hfiles]
      exact hall
  inCall := by
    intro hlive
    have hcall := h.inCall fun hend => hlive (hfm.mpr hend)
    rw [hcalls]
    refine ⟨?_, ?_, ?_⟩
    · rw [hrecorder.2.2]
      exact hcall.voice
    · rw [hrecorder.2.1]
      exact hcall.stream
    · rw [hrecorder.1]
      exact hcall.recorder

theorem recorded_emit {C : FmConfig α} {log : List (Sent × RecordIo)} {s : FmTask α} {now : Instant}
    {frame : AudioFrame} {io : RecordIo} (audio : List AudioFrame) (h : Recorded log s) (hlive : s.fm ≠ .returned) :
    Recorded (log ++ [(⟨now, .frame frame (packetOf C s frame)⟩, io)]) { emit C s now frame io with audio } := by
  have hcall := h.inCall hlive
  have hfiles := h.files
  rw [callsOver_live hlive] at hfiles
  -- The recorder sees the state with its new deadline and AGC.
  let s' : FmTask α :=
    { s with
      nextVoiceSend := if Bridge.isVoice frame then some (deadline s now + voiceFrameInterval) else none
      agc := (C.levels.applyAgc s.agc frame).1 }
  have hcall' : InCall (calls log).2 s' := ⟨hcall.voice, hcall.stream, hcall.recorder⟩
  have hfiles' : FilesOf (calls log).1 s' := hfiles
  obtain ⟨hfinal, hopen⟩ := recordCall_packet (C := C) (s := s') io (packetOf C s frame) now hcall' hfiles' rfl
  have hsent : (emit C s now frame io).sent = s.sent ++ [⟨now, .frame frame (packetOf C s frame)⟩] := by
    obtain ⟨recorder, currentDmrStreamId, hadVoiceInCall, files, hemit⟩ := emit_eq C s now frame io
    rw [hemit]
  have hselect : (emit C s now frame io).fm ≠ .returned := nofun
  refine ⟨?_, ?_, fun _ => ?_⟩
  · rw [List.map_append, h.transcript]
    exact hsent.symm
  · show FilesOf (callsOver (emit C s now frame io) _) _
    rw [callsOver_live hselect, calls_snoc]
    exact hfinal
  · rw [calls_snoc]
    exact ⟨hopen.voice, hopen.stream, hopen.recorder⟩

theorem recorded_step {C : FmConfig α} {log : List (Sent × RecordIo)} {s t : FmTask α} {a : FmAction}
    (h : Recorded log s) (hstep : step C s a = some t) : Recorded (written C s log a) t := by
  have hnothing (hsent : t.sent = s.sent) : written C s log a = log := by
    have hwritten : written C s log a = log ++ ([] : List Sent).map (·, a.io) :=
      written_eq log hstep (hsent.trans (List.append_nil _).symm)
    rwa [List.map_nil, List.append_nil] at hwritten
  have hmove := step_move hstep
  cases hmove with
  | offer frame | announce event | flag audioClosed metadataClosed cancelled hinput | skip hfm htake hclock htext =>
    rw [hnothing rfl]
    exact recorded_quiet h Iff.rfl h.transcript rfl rfl ⟨rfl, rfl, rfl⟩
  | text hfm htake hclock htext =>
    rw [written_eq log hstep rfl]
    refine recorded_quiet h Iff.rfl ?_ ?_ rfl ⟨rfl, rfl, rfl⟩
    · rw [List.map_append, h.transcript]
      rfl
    · exact calls_snoc ..
  | @hold frame audio now io hfm htake hclock hvoice hearly =>
    rw [hnothing rfl]
    refine recorded_quiet h ?_ h.transcript rfl rfl ⟨rfl, rfl, rfl⟩
    exact iff_of_false nofun (by rw [hfm]; exact nofun)
  | @emit _ frame audio now io ha hlive htake hclock hdue =>
    have hio : a.io = io := by
      rcases ha with rfl | rfl <;> rfl
    have hsent : (FmTask.emit C s now frame io).sent = s.sent ++ [⟨now, .frame frame (packetOf C s frame)⟩] := by
      obtain ⟨recorder, currentDmrStreamId, hadVoiceInCall, files, hemit⟩ := emit_eq C s now frame io
      rw [hemit]
    rw [written_eq log hstep hsent, hio]
    exact recorded_emit audio h hlive
  | @leave io hlive =>
    have hfiles := h.files
    rw [callsOver_live hlive] at hfiles
    have hfinal := (finalize_files io.disk (h.inCall hlive) hfiles).2
    have hsent : (finalizeAgcOutCall s io.disk).sent = s.sent := by
      obtain ⟨recorder, currentDmrStreamId, hadVoiceInCall, files, hend⟩ := finalizeAgcOutCall_eq s io.disk
      rw [hend]
    rw [hnothing hsent]
    refine ⟨h.transcript.trans hsent.symm, ?_, fun hend => absurd rfl hend⟩
    rw [callsOver, if_pos rfl]
    exact hfinal

theorem recorded_runs {C : FmConfig α} {agc : Option α} {as : List FmAction} {s : FmTask α}
    (h : runs (step C) (start agc) as = some s) : Recorded (writeLog C agc as) s := by
  have hstart : Recorded [] (start agc) := ⟨rfl, ⟨[], .slnil, .nil⟩, fun _ => ⟨rfl, nofun, nofun⟩⟩
  have hkept (s : FmTask α) (log : List (Sent × RecordIo)) (a : FmAction) (t : FmTask α) (h : Recorded log s)
      (hstep : step C s a = some t) : Recorded (written C s log a) t := recorded_step h hstep
  exact runs_history hkept hstart h

/-- Over every run the files are, in turn, those of calls of the transcript: each that got finished is a WAV
file of the call's packets before the first write that was refused, so of all of them if none was. -/
theorem recordings (C : FmConfig α) (agc : Option α) (as : List FmAction) (s : FmTask α)
    (h : runs (step C) (start agc) as = some s) :
    (writeLog C agc as).map (·.1) = s.sent ∧
      ∃ recorded, recorded.Sublist (callsOver s (writeLog C agc as)) ∧ List.Forall₂ (fun call f => f.1 = call.stream ∧
        ∀ bytes, f.2 = .dropped bytes (.ok ()) →
          Riff.readWave bytes = some (Recording.callWave (Recording.kept 0 call.writes)) ∧
            ((∀ t ∈ call.writes, t.pcm.length ≤ t.taken) →
              (call.writes.flatMap (·.pcm)).length ≤ Wav.maxSamples.toNat →
                Riff.readWave bytes = some (Recording.callWave (call.writes.flatMap (·.pcm))))) recorded s.files := by
  have hrecorded := recorded_runs h
  obtain ⟨recorded, hsub, hfiles⟩ := hrecorded.files
  refine ⟨hrecorded.transcript, recorded, hsub, hfiles.imp fun call f hf => ⟨hf.stream, fun bytes hbytes => ?_⟩⟩
  obtain ⟨disk, heq⟩ := hf.recorded
  have hread := Recording.reads_back_from Recording.holds_create call.writes (heq.symm.trans hbytes)
  refine ⟨hread, fun htaken hcap => ?_⟩
  have hall := Recording.kept_all 0 call.writes htaken (by rwa [Nat.zero_add])
  rw [← hall]
  exact hread

/-- Two frames of stream 7. The disk is full in the second. -/
def twoFrames : List FmAction :=
  [.offer ⟨true, some (.replicate 160 5), some 7⟩, .takeAudio 0 ⟨true, 160, ⟨0, 0, 0⟩⟩,
    .offer ⟨true, some (.replicate 160 6), some 7⟩, .takeAudio 20 ⟨true, 10, ⟨1000, 4, 4⟩⟩,
    .offer ⟨false, none, none⟩, .takeAudio 25 ⟨true, 0, ⟨0, 0, 0⟩⟩]

set_option maxRecDepth 4000 in
theorem recordings_sample :
    ∃ s bytes, runs (step fmSample) (start none) twoFrames = some s ∧ s.files = [(7, .dropped bytes (.ok ()))] ∧
      Riff.readWave bytes = some (Recording.callWave (.replicate 160 5)) := by
  refine ⟨_, _, rfl, rfl, ?_⟩
  obtain ⟨-, recorded, hsub, hfiles⟩ := recordings fmSample none twoFrames _ rfl
  obtain rfl := hsub.eq_of_length hfiles.length_eq
  obtain ⟨⟨-, hread⟩, -⟩ := List.forall₂_cons.mp hfiles
  exact (hread _ rfl).1

end FmTask

end DmrBridge
