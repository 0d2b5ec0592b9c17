import DmrBridge.Tx

/-!
# Incoming calls, step by step

`RxMove` lists everything a handler can do on the receive side, with the boundary events and the
audio it sends to FM.
-/

namespace DmrBridge

variable {σ φ : Type}

/-- What a voice packet of `streamId` may add after its boundary events. -/
def VoiceOutput (streamId : UInt32) : Output → Prop
  | .audio frame => ∃ pcm, frame = makeVoiceFrame pcm streamId
  | .stats (.voiceFrame .dmrToFm _) | .stats (.drop .dmrToFm) => True
  | _ => False

inductive RxMove (P : Params σ φ) (env : Env) : PttEvent → PttState → PttState → List Output → Prop where
  /-- An outgoing call is touched, or no call at all. -/
  | send {ev : PttEvent} {s s' : PttState} {outs : List Output} (hs : s.rxSide = false)
      (hs' : s'.rxSide = false) (houts : ∀ o ∈ outs, o.dir = .fmToDmr) : RxMove P env ev s s' outs
  | quiet {ev : PttEvent} {s : PttState} (hev : ∀ c, ev ≠ .control c) (htimeout : ev = .timeout → s.rxSide = false) :
      RxMove P env ev s s []
  | header {pkt : Dmrd} {s : PttState} (hgw : P.config.gateway ≠ .fmToDmr)
      (hmatch : matchesConfig pkt P.config = true) (hs : s.isTx = false)
      (hft : pkt.frameType = .dataSync) (hdt : pkt.dtypeVseq = dataTypeVoiceHeader)
      (hstream : s.rxStream ≠ some pkt.streamId) :
      RxMove P env (.dmrd pkt) s (.rx (newRxCall pkt env.now none)) (emitCallMetadata P pkt ++ [rxCallStart pkt])
  | voice {pkt : Dmrd} {s : PttState} {frames : List Output} (hgw : P.config.gateway ≠ .fmToDmr)
      (hmatch : matchesConfig pkt P.config = true) (hs : s.isTx = false) (hft : pkt.frameType ≠ .dataSync)
      (hframes : ∀ o ∈ frames, VoiceOutput pkt.streamId o) :
      RxMove P env (.dmrd pkt) s (.rx (enterVoice s pkt env.now).call)
        (boundaryOutputs P pkt (enterVoice s pkt env.now) ++ frames)
  | terminator {pkt : Dmrd} {call : RxCall} (hgw : P.config.gateway ≠ .fmToDmr)
      (hstream : call.streamId = pkt.streamId) :
      RxMove P env (.dmrd pkt) (.rx call) (.rxHang (env.now + P.config.hangTime))
        [.metadata .clear, rxCallEnd .normal, .audio (makeUnkeyFrame (some call.streamId))]
  | streamTimeout {call : RxCall} :
      RxMove P env .timeout (.rx call) (.rxHang (env.now + P.config.hangTime))
        [.metadata .clear, rxCallEnd .streamTimeout, .audio (makeUnkeyFrame (some call.streamId))]
  | shutdown {call : RxCall} :
      RxMove P env .shutdown (.rx call) .idle
        [.metadata .clear, rxCallEnd .shutdown, .audio (makeUnkeyFrame (some call.streamId))]
  | hangExpired {dl : Instant} : RxMove P env .timeout (.rxHang dl) .idle []
  | hangShutdown {dl : Instant} :
      RxMove P env .shutdown (.rxHang dl) .idle [.audio (makeUnkeyFrame none)]
  /-- A session reset on the receive side loses the state without a word. -/
  | clobber {s : PttState} (hs : s.rxSide = true) : RxMove P env (.control .networkReset) s .idle []

/-! ## The call after a voice packet -/

theorem rxStream_eq_some {s : PttState} {streamId : UInt32} :
    s.rxStream = some streamId ↔ ∃ call, s = .rx call ∧ call.streamId = streamId := by
  cases s <;> simp [PttState.rxStream]

theorem enterVoice_same {call : RxCall} {pkt : Dmrd} (h : call.streamId = pkt.streamId) (now : Instant) :
    enterVoice (.rx call) pkt now =
      { call := { call with lastSeq := some pkt.seq, lastVoice := now }, priorCallEnd := none, callStart := false
        gap := call.lastSeq.elim 0 (seqGap · pkt.seq) } := by
  simp [enterVoice, h]

theorem enterVoice_new {s : PttState} {pkt : Dmrd} (h : s.rxStream ≠ some pkt.streamId) (now : Instant) :
    enterVoice s pkt now =
      { call := newRxCall pkt now (some pkt.seq), priorCallEnd := s.rxStream, callStart := true, gap := 0 } := by
  cases s with
  | rx call =>
    have hstream : call.streamId ≠ pkt.streamId := fun heq => h (congrArg some heq)
    simp [enterVoice, PttState.rxStream, hstream]
  | _ => rfl

theorem boundaryOutputs_new (P : Params σ φ) (pkt : Dmrd) (call : RxCall) (prior : Option UInt32) :
    boundaryOutputs P pkt { call, priorCallEnd := prior, callStart := true, gap := 0 } =
      (prior.elim [] fun sid => [rxCallEnd .normal, .audio (makeUnkeyFrame (some sid))]) ++
        rxCallStart pkt :: emitCallMetadata P pkt := by
  cases prior <;> simp [boundaryOutputs]

/-! ## The audio of a voice packet -/

theorem voiceOutput_voiceAudio (P : Params σ φ) (c : Codec σ φ) (env : Env) (pkt : Dmrd) (gap : UInt8) :
    ∀ o ∈ (voiceAudio P c env pkt gap).2, VoiceOutput pkt.streamId o := by
  apply forall_voiceAudio
  constructor
  · trivial
  · intro elapsed
    trivial
  · intro pcm
    exact ⟨pcm, rfl⟩

/-! ## Every handler is one move -/

theorem onDmrd_rxMove (P : Params σ φ) (m : Machine σ φ) (env : Env) (pkt : Dmrd) :
    RxMove P env (.dmrd pkt) m.state (onDmrd P m env pkt).1.state (onDmrd P m env pkt).2 := by
  have stay : RxMove P env (.dmrd pkt) m.state m.state [] := .quiet (by simp) (by simp)
  unfold onDmrd
  split
  · exact stay
  rename_i hgw
  split
  · exact stay
  rename_i hmatch
  split
  · exact stay
  rename_i htx
  have hm : matchesConfig pkt P.config = true := by simpa using hmatch
  have hs : m.state.isTx = false := by simpa using htx
  split
  · rename_i hft
    split
    · rename_i hdt
      unfold onHeader
      split
      · exact stay
      · rename_i hstream
        exact .header hgw hm hs hft hdt hstream
    split
    · unfold onTerminator
      split
      · rename_i hstream
        cases hstate : m.state with
        | rx call =>
          simp only [hstate, PttState.rxStream, Option.some.injEq] at hstream
          rw [← hstream]
          exact .terminator hgw hstream
        | _ => simp [hstate, PttState.rxStream] at hstream
      · exact stay
    · exact stay
  all_goals
    rename_i hft
    exact .voice hgw hm hs (by simp [hft]) (voiceOutput_voiceAudio P _ env pkt _)

theorem dir_trySendVoiceDmrd (env : Env) (pkt : DmrdPacket) : ∀ o ∈ trySendVoiceDmrd env pkt, o.dir = .fmToDmr := by
  intro o ho
  unfold trySendVoiceDmrd at ho
  split at ho
  · rcases List.mem_cons.mp ho with rfl | ho
    · rfl
    · exact dir_dropBurst .fmToDmr o ho
  · rcases List.mem_cons.mp ho with rfl | ho
    · rfl
    · obtain ⟨i, -, rfl⟩ := List.mem_map.mp ho
      rfl

theorem dir_burstMove {P : Params σ φ} {env : Env} {c : Codec σ φ} {tx tx' : TxCall} {outs : List Output}
    (h : BurstMove P env c tx tx' outs) : ∀ o ∈ outs, o.dir = .fmToDmr := by
  cases h with
  | failed => exact dir_dropBurst .fmToDmr
  | sent ambe pkt => exact dir_trySendVoiceDmrd env pkt

theorem dir_flushMove {P : Params σ φ} {env : Env} {c : Codec σ φ} {tx tx' : TxCall} {outs : List Output}
    (h : FlushMove P env c tx tx' outs) : ∀ o ∈ outs, o.dir = .fmToDmr := by
  cases h with
  | empty => simp
  | burst _ h => exact dir_burstMove h

theorem send_of_txMove {P : Params σ φ} {env : Env} {c : Codec σ φ} {ev : PttEvent} {s s' : PttState}
    {outs : List Output} (h : TxMove P env c ev s s' outs) (hs : s.isTx = true ∨ s'.isTx = true) :
    RxMove P env ev s s' outs := by
  cases h with
  | receive hs0 hs1 => simp [hs0, hs1] at hs
  | keep => exact .send rfl rfl (by simp)
  | buffer => exact .send rfl rfl (by simp)
  | burst _ _ _ _ h => exact .send rfl rfl (dir_burstMove h)
  | start =>
    refine .send rfl rfl fun o ho => ?_
    simp only [List.mem_cons, List.not_mem_nil, or_false] at ho
    rcases ho with rfl | rfl <;> rfl
  | finish _ hflush =>
    refine .send rfl rfl fun o ho => ?_
    rcases List.mem_append.mp ho with ho | ho
    · exact dir_flushMove hflush o ho
    · simp only [List.mem_cons, List.not_mem_nil, or_false] at ho
      rcases ho with rfl | rfl <;> rfl
  | reset =>
    refine .send rfl rfl fun o ho => ?_
    rw [List.mem_singleton.mp ho]
    rfl

theorem onAudio_rxMove (P : Params σ φ) (m : Machine σ φ) (env : Env) (frame : AudioFrame) :
    RxMove P env (.audio frame) m.state (onAudio P m env frame).1.state (onAudio P m env frame).2 := by
  have hmove : TxMove P env m.codec (.audio frame) m.state (onAudio P m env frame).1.state (onAudio P m env frame).2 :=
    handle_move P m env (.audio frame)
  obtain ⟨s, c⟩ := m
  cases s with
  | tx tx => exact send_of_txMove hmove (.inl rfl)
  | rx call | rxHang dl =>
    rw [onAudio_of_rxSide P _ env frame rfl]
    exact .quiet (by simp) (by simp)
  | idle =>
    have hidle := onAudio_of_idle P c env frame
    cases hkeyed : keyedFrame P.config (.audio frame) with
    | none =>
      rw [hidle, hkeyed]
      exact .quiet (by simp) (by simp)
    | some audio =>
      obtain ⟨rotation, hpos, hdr, d, -, -, -, hstate, -⟩ := startTx_spec P ⟨.idle, c⟩ env audio
      rw [hkeyed] at hidle
      exact send_of_txMove hmove (.inr (by rw [hidle, Option.elim_some, hstate]; rfl))

theorem handle_rxMove (P : Params σ φ) (m : Machine σ φ) (env : Env) (ev : PttEvent) :
    RxMove P env ev m.state (handle P m env ev).1.state (handle P m env ev).2 := by
  have hmove := handle_move P m env ev
  cases ev with
  | dmrd pkt => exact onDmrd_rxMove P m env pkt
  | audio frame => exact onAudio_rxMove P m env frame
  | control event =>
    obtain ⟨s, c⟩ := m
    cases event
    cases s with
    | tx tx => exact send_of_txMove hmove (.inl rfl)
    | idle => exact .send rfl rfl (by simp [handle, onControl, onNetworkReset])
    | rx call | rxHang dl => exact .clobber rfl
  | timeout =>
    obtain ⟨s, c⟩ := m
    cases s with
    | tx tx => exact send_of_txMove hmove (.inl rfl)
    | idle => exact .quiet (by simp) fun _ => rfl
    | rx call => exact .streamTimeout
    | rxHang dl => exact .hangExpired
  | shutdown =>
    obtain ⟨s, c⟩ := m
    cases s with
    | tx tx => exact send_of_txMove hmove (.inl rfl)
    | idle => exact .quiet (by simp) (by simp)
    | rx call => exact .shutdown
    | rxHang dl => exact .hangShutdown

end DmrBridge
