import DmrBridge.Ptt

/-!
# Outgoing calls, step by step

No builder panics on a configuration, and `TxMove` lists everything a handler can do to an
outgoing call. What the handlers do on the receive side is one case of it.
-/

namespace DmrBridge

variable {σ φ : Type}

/-! ## The builders -/

def IsControlDmrd (config : VoiceConfig) (seq : UInt8) (streamId : UInt32) (dataType : UInt8) (d : Dmrd) : Prop :=
  ∃ lc, buildVoiceLc (isGroupCall config) config.talkgroup.asU32 config.srcId.asU32 dataType = some lc ∧
    d = buildDmrd seq config streamId .dataSync dataType
      (buildDataBurst lc dataType config.colorCode.value bsDataSync)

theorem buildDmrd_serialize (config : VoiceConfig) (seq : UInt8) (streamId : UInt32) (ft : FrameType)
    (dtypeVseq : UInt8) (data : Bytes 33) (hv : dtypeVseq < 16) :
    ∃ pkt, (buildDmrd seq config streamId ft dtypeVseq data).serialize = some pkt ∧
      dmrdOf pkt = some (buildDmrd seq config streamId ft dtypeVseq data) := by
  obtain ⟨pkt, hpkt⟩ := serialize_isSome (buildDmrd seq config streamId ft dtypeVseq data) config.talkgroup.range
  exact ⟨pkt, hpkt, dmrdOf_serialize hpkt hv⟩

theorem buildTxControl_spec (config : VoiceConfig) (tx : TxCall) (dataType : UInt8) (h : dataType < 16) :
    ∃ pkt d, buildTxControl config tx dataType = some (pkt, { tx with dmrdSeq := tx.dmrdSeq + 1 }) ∧
      dmrdOf pkt = some d ∧ IsControlDmrd config tx.dmrdSeq tx.streamId dataType d := by
  obtain ⟨lc, hlc⟩ := Option.isSome_iff_exists.mp
    (buildVoiceLc_isSome (isGroupCall config) _ _ dataType config.talkgroup.range config.srcId.range)
  obtain ⟨pkt, hpkt, hd⟩ := buildDmrd_serialize config tx.dmrdSeq tx.streamId .dataSync dataType
    (buildDataBurst lc dataType config.colorCode.value bsDataSync) h
  refine ⟨pkt, _, ?_, hd, lc, hlc, rfl⟩
  simp [buildTxControl, hlc, hpkt]

theorem buildVoiceBurst_spec (config : VoiceConfig) (ambe : Vector AmbeFrame 3) (tx : TxCall) :
    ∃ pkt, buildVoiceBurst config ambe tx = some (pkt, tx.advance) ∧
      dmrdOf pkt = some (burstDmrd config ambe tx) := by
  have hv : tx.vseq < 16 := UInt8.lt_trans tx.vseq_lt (by decide)
  obtain ⟨pkt, hpkt, hd⟩ := buildDmrd_serialize config tx.dmrdSeq tx.streamId
    (if tx.vseq = 0 then FrameType.voiceSync else .voice) tx.vseq (assembleBurst ambe (burstSync config tx)) hv
  exact ⟨pkt, by simp [buildVoiceBurst, burstDmrd, hpkt], hd⟩

theorem buildLcRotation_spec (config : VoiceConfig) :
    ∃ rotation, buildLcRotation config = some rotation ∧ 0 < rotation.length := by
  obtain ⟨body, hbody⟩ := Option.isSome_iff_exists.mp
    (buildVoiceLcBody_isSome (isGroupCall config) _ _ config.talkgroup.range config.srcId.range)
  refine ⟨buildFragments body :: (encodeTalkerAliasLcs config.callsign).map buildFragments, ?_, ?_⟩
  · simp [buildLcRotation, hbody]
  · exact Nat.succ_pos _

/-! ## One burst, one flush -/

/-- One attempt at a burst: the encoder failed and no counter moved, or a burst was built. -/
inductive BurstMove (P : Params σ φ) (env : Env) (c : Codec σ φ) (tx : TxCall) : TxCall → List Output → Prop where
  | failed (henc : (encodeBurst P c env.calls (takeBurst tx.pcmBuf)).2 = none) :
      BurstMove P env c tx { tx with pcmBuf := [] } (dropBurst .fmToDmr)
  | sent (ambe : Vector AmbeFrame 3) (pkt : DmrdPacket)
      (henc : (encodeBurst P c env.calls (takeBurst tx.pcmBuf)).2 = some ambe)
      (hpkt : dmrdOf pkt = some (burstDmrd P.config ambe tx)) :
      BurstMove P env c tx { tx.advance with pcmBuf := [] } (trySendVoiceDmrd env pkt)

inductive FlushMove (P : Params σ φ) (env : Env) (c : Codec σ φ) (tx : TxCall) : TxCall → List Output → Prop where
  | empty (hbuf : tx.pcmBuf = []) : FlushMove P env c tx tx []
  | burst {tx' : TxCall} {outs : List Output} (hbuf : tx.pcmBuf ≠ []) (h : BurstMove P env c tx tx' outs) :
      FlushMove P env c tx tx' outs

theorem sendBurst_move (P : Params σ φ) (c : Codec σ φ) (env : Env) (tx : TxCall) :
    BurstMove P env c tx (sendBurst P c env tx).2.1 (sendBurst P c env tx).2.2 := by
  unfold sendBurst
  dsimp only
  rcases henc : encodeBurst P c env.calls (takeBurst tx.pcmBuf) with ⟨c', _ | ambe⟩
  · exact .failed (by rw [henc])
  · obtain ⟨pkt, hbuild, hpkt⟩ := buildVoiceBurst_spec P.config ambe { tx with pcmBuf := [] }
    simp only [hbuild]
    exact .sent ambe pkt (by rw [henc]) hpkt

theorem flushTx_move (P : Params σ φ) (c : Codec σ φ) (env : Env) (tx : TxCall) :
    FlushMove P env c tx (flushTx P c env tx).2.1 (flushTx P c env tx).2.2 := by
  unfold flushTx
  by_cases h : tx.pcmBuf = []
  · simp only [h, List.isEmpty_nil, if_true]
    exact .empty h
  · rw [if_neg (by simpa using h)]
    exact .burst h (sendBurst_move P c env tx)

/-! ## One handler -/

def StatsEvent.dir : StatsEvent → CallDirection
  | .callStart dir .. | .voiceFrame dir _ | .drop dir | .callEnd dir _ => dir

/-- The direction an output belongs to. Only the builders of outgoing packets assert. -/
def Output.dir : Output → CallDirection
  | .audio _ | .metadata _ => .dmrToFm
  | .voice .. | .control _ | .panicked => .fmToDmr
  | .stats e => e.dir

def txCallStart (config : VoiceConfig) : Output :=
  .stats (.callStart .fmToDmr config.srcId config.talkgroup.asU32 config.slot)

/-- The events that end an outgoing call with a terminator. -/
def endReason (config : VoiceConfig) (env : Env) (tx : TxCall) : PttEvent → Option TerminationReason
  | .audio frame => if config.gateway = .dmrToFm ∨ frame.keyup then none else some .normal
  | .timeout => if env.now ≥ tx.started + config.txTimeout then some .txTimeout else none
  | .shutdown => some .shutdown
  | .dmrd _ | .control _ => none

/-- The buffer a turn hands to the encoder, if it does. -/
def attempted (config : VoiceConfig) (env : Env) (tx : TxCall) (ev : PttEvent) : Option (List PcmFrame) :=
  match endReason config env tx ev, ev with
  | some _, _ => if tx.pcmBuf.isEmpty then none else some tx.pcmBuf
  | none, .audio frame =>
    if config.gateway = .dmrToFm ∨ tx.pcmBuf.length < 2 then none
    else frame.samples.map fun audio => tx.pcmBuf ++ [audio]
  | none, _ => none

theorem attempted_of_endReason {config : VoiceConfig} {env : Env} {tx : TxCall} {ev : PttEvent}
    {reason : TerminationReason} (h : endReason config env tx ev = some reason) :
    attempted config env tx ev = if tx.pcmBuf.isEmpty then none else some tx.pcmBuf := by
  simp [attempted, h]

/-- The keyed frame of an event, if the gateway lets it through. -/
def keyedFrame (config : VoiceConfig) : PttEvent → Option PcmFrame
  | .audio frame => if config.gateway ≠ .dmrToFm ∧ frame.keyup = true then frame.samples else none
  | _ => none

theorem keyedFrame_eq_some {config : VoiceConfig} {ev : PttEvent} {audio : PcmFrame}
    (h : keyedFrame config ev = some audio) :
    ∃ frame, ev = .audio frame ∧ config.gateway ≠ .dmrToFm ∧ frame.keyup = true ∧ frame.samples = some audio := by
  unfold keyedFrame at h
  split at h
  · rename_i frame
    split at h
    · rename_i hon
      exact ⟨frame, rfl, hon.1, hon.2, h⟩
    · cases h
  · cases h

theorem endTx_spec (P : Params σ φ) (m : Machine σ φ) (env : Env) (tx : TxCall) (reason : TerminationReason) :
    ∃ term d, dmrdOf term = some d ∧
      IsControlDmrd P.config (flushTx P m.codec env tx).2.1.dmrdSeq (flushTx P m.codec env tx).2.1.streamId
        dataTypeVoiceTerminator d ∧
      endTx P m env tx reason =
        (⟨.idle, (flushTx P m.codec env tx).1⟩,
          (flushTx P m.codec env tx).2.2 ++ [.control term, .stats (.callEnd .fmToDmr reason)]) := by
  obtain ⟨term, d, hbuild, hterm, hd⟩ :=
    buildTxControl_spec P.config (flushTx P m.codec env tx).2.1 dataTypeVoiceTerminator (by decide)
  refine ⟨term, d, hterm, hd, ?_⟩
  unfold endTx
  simp only [buildTxTerminator, hbuild]

theorem startTx_spec (P : Params σ φ) (m : Machine σ φ) (env : Env) (audio : PcmFrame) :
    ∃ rotation, ∃ hpos : 0 < rotation.length, ∃ hdr d, buildLcRotation P.config = some rotation ∧
      dmrdOf hdr = some d ∧ IsControlDmrd P.config 0 env.streamId dataTypeVoiceHeader d ∧
      (startTx P m env audio).1.state = .tx { newTxCall env rotation hpos with dmrdSeq := 1, pcmBuf := [audio] } ∧
      (startTx P m env audio).2 = [txCallStart P.config, .control hdr] := by
  obtain ⟨rotation, hrot, hpos⟩ := buildLcRotation_spec P.config
  obtain ⟨hdr, d, hbuild, hhdr, hd⟩ :=
    buildTxControl_spec P.config (newTxCall env rotation hpos) dataTypeVoiceHeader (by decide)
  refine ⟨rotation, hpos, hdr, d, hrot, hhdr, hd, ?_⟩
  unfold startTx
  simp only [hrot, hpos, dite_true, buildTxHeader, hbuild]
  exact ⟨rfl, rfl⟩

/-! ## The audio of a packet -/

/-- What a packet can put out: drops, frame events and voice of its own stream. -/
structure GoodAudio (sid : UInt32) (good : Output → Prop) : Prop where
  drop : good (.stats (.drop .dmrToFm))
  frame : ∀ elapsed, good (.stats (.voiceFrame .dmrToFm elapsed))
  voice : ∀ pcm, good (.audio (makeVoiceFrame pcm sid))

section
variable {sid : UInt32} {good : Output → Prop}

theorem forall_lostFrameOutputs (h : GoodAudio sid good) (r : Except VocoderError PcmFrame) :
    ∀ o ∈ lostFrameOutputs sid r, good o := by
  intro o ho
  cases r with
  | error e => cases ho
  | ok pcm =>
    rw [List.mem_singleton.mp ho]
    exact h.voice pcm

theorem forall_frameOutputs (h : GoodAudio sid good) (elapsed : Duration) (r : Except VocoderError PcmFrame) :
    ∀ o ∈ frameOutputs sid elapsed r, good o := by
  intro o ho
  cases r with
  | error e =>
    rw [List.mem_singleton.mp ho]
    exact h.drop
  | ok pcm =>
    simp only [frameOutputs, List.mem_cons, List.not_mem_nil, or_false] at ho
    rcases ho with rfl | rfl
    · exact h.frame elapsed
    · exact h.voice pcm

theorem forall_fillGap (P : Params σ φ) (env : Env) (h : GoodAudio sid good) (n : Nat) (c : Codec σ φ) (i : Nat) :
    ∀ o ∈ (fillGap P env sid n c i).2, good o := by
  induction n generalizing c i with
  | zero => simp [fillGap]
  | succ n ih =>
    intro o ho
    rcases List.mem_append.mp ho with ho | ho
    · exact forall_lostFrameOutputs h _ o ho
    · exact ih _ _ o ho

theorem forall_decodeFrames (P : Params σ φ) (env : Env) (h : GoodAudio sid good) (frames : List AmbeFrame)
    (c : Codec σ φ) (i : Nat) : ∀ o ∈ (decodeFrames P env sid frames c i).2, good o := by
  induction frames generalizing c i with
  | nil => simp [decodeFrames]
  | cons ambe frames ih =>
    intro o ho
    rcases List.mem_append.mp ho with ho | ho
    · exact forall_frameOutputs h _ _ o ho
    · exact ih _ _ o ho

end

/-- The outputs of a packet are a dropped burst, or those of its single frames. -/
theorem forall_voiceAudio (P : Params σ φ) (c : Codec σ φ) (env : Env) (pkt : Dmrd) (gap : UInt8) {good : Output → Prop}
    (h : GoodAudio pkt.streamId good) : ∀ o ∈ (voiceAudio P c env pkt gap).2, good o := by
  unfold voiceAudio
  dsimp only
  by_cases hfull : env.audioFull
  · rw [if_pos hfull]
    intro o ho
    rw [List.eq_of_mem_replicate ho]
    exact h.drop
  · rw [if_neg hfull]
    intro o ho
    rcases List.mem_append.mp ho with ho | ho
    · exact forall_fillGap P env h _ _ _ o ho
    · exact forall_decodeFrames P env h _ _ _ o ho

/-! ## Receiving sends nothing to the DMR side -/

theorem dir_dropBurst (dir : CallDirection) : ∀ o ∈ dropBurst dir, o.dir = dir := by
  intro o ho
  rw [List.eq_of_mem_replicate ho]
  rfl

theorem forall_emitCallMetadata (P : Params σ φ) (pkt : Dmrd) {good : Output → Prop} (h : ∀ e, good (.metadata e)) :
    ∀ o ∈ emitCallMetadata P pkt, good o := by
  intro o ho
  unfold emitCallMetadata at ho
  split at ho
  · cases ho
  · rw [List.mem_singleton.mp ho]
    exact h _

theorem dir_emitCallMetadata (P : Params σ φ) (pkt : Dmrd) : ∀ o ∈ emitCallMetadata P pkt, o.dir = .dmrToFm := by
  apply forall_emitCallMetadata
  intro e
  rfl

theorem dir_voiceAudio (P : Params σ φ) (c : Codec σ φ) (env : Env) (pkt : Dmrd) (gap : UInt8) :
    ∀ o ∈ (voiceAudio P c env pkt gap).2, o.dir = .dmrToFm := by
  apply forall_voiceAudio
  constructor
  · rfl
  · intro elapsed
    rfl
  · intro pcm
    rfl

theorem dir_boundaryOutputs (P : Params σ φ) (pkt : Dmrd) (e : VoiceEntry) :
    ∀ o ∈ boundaryOutputs P pkt e, o.dir = .dmrToFm := by
  intro o ho
  simp only [boundaryOutputs, List.mem_append] at ho
  rcases ho with (ho | ho) | ho
  · split at ho
    · simp only [List.mem_cons, List.not_mem_nil, or_false] at ho
      rcases ho with rfl | rfl <;> rfl
    · cases ho
  · split at ho
    · rcases List.mem_cons.mp ho with rfl | ho
      · rfl
      · exact dir_emitCallMetadata P pkt o ho
    · cases ho
  · rw [List.eq_of_mem_replicate ho]
    rfl

theorem onDmrd_receive (P : Params σ φ) (m : Machine σ φ) (env : Env) (pkt : Dmrd) (h : m.state.isTx = false) :
    (onDmrd P m env pkt).1.state.isTx = false ∧ ∀ o ∈ (onDmrd P m env pkt).2, o.dir = .dmrToFm := by
  unfold onDmrd
  split
  · exact ⟨h, by simp⟩
  split
  · exact ⟨h, by simp⟩
  rw [if_neg (by simp [h])]
  split
  · split
    · unfold onHeader
      split
      · exact ⟨h, by simp⟩
      · refine ⟨rfl, fun o ho => ?_⟩
        rcases List.mem_append.mp ho with ho | ho
        · exact dir_emitCallMetadata P pkt o ho
        · rw [List.mem_singleton.mp ho]
          rfl
    split
    · unfold onTerminator
      split
      · refine ⟨rfl, fun o ho => ?_⟩
        simp only [List.mem_cons, List.not_mem_nil, or_false] at ho
        rcases ho with rfl | rfl | rfl <;> rfl
      · exact ⟨h, by simp⟩
    · exact ⟨h, by simp⟩
  all_goals
    refine ⟨rfl, fun o ho => ?_⟩
    rcases List.mem_append.mp ho with ho | ho
    · exact dir_boundaryOutputs P pkt _ o ho
    · exact dir_voiceAudio P _ env pkt _ o ho

/-! ## One turn outside an outgoing call -/

def PttState.rxSide : PttState → Bool
  | .rx _ | .rxHang _ => true
  | _ => false

theorem onAudio_of_rxSide (P : Params σ φ) (m : Machine σ φ) (env : Env) (frame : AudioFrame)
    (h : m.state.rxSide = true) : onAudio P m env frame = (m, []) := by
  obtain ⟨s, c⟩ := m
  unfold onAudio
  cases s with
  | idle | tx => cases h
  | rx call | rxHang dl => cases frame.samples <;> simp

theorem onAudio_of_idle (P : Params σ φ) (c : Codec σ φ) (env : Env) (frame : AudioFrame) :
    onAudio P ⟨.idle, c⟩ env frame =
      (keyedFrame P.config (.audio frame)).elim (⟨.idle, c⟩, []) (startTx P ⟨.idle, c⟩ env) := by
  unfold onAudio keyedFrame
  by_cases hgw : P.config.gateway = .dmrToFm
  · simp [hgw]
  by_cases hkey : frame.keyup = true
  · cases hframe : frame.samples <;> simp [hgw, hkey, hframe]
  · simp [hgw, hkey]

/-- A turn on the receive side, or the start of an outgoing call. -/
theorem turn_outside (P : Params σ φ) (m : Machine σ φ) (e : Env × PttEvent) (hm : m.state.isTx = false) :
    ((m.state = .idle → keyedFrame P.config e.2 = none) ∧ (turn P m e).1.state.isTx = false ∧
        ∀ o ∈ (turn P m e).2, o.dir = .dmrToFm) ∨
      ∃ audio, m.state = .idle ∧ keyedFrame P.config e.2 = some audio ∧ turn P m e = startTx P m e.1 audio := by
  obtain ⟨env, ev⟩ := e
  obtain ⟨s, c⟩ := m
  cases ev with
  | dmrd pkt => exact .inl ⟨fun _ => rfl, onDmrd_receive P ⟨s, c⟩ env pkt hm⟩
  | audio frame =>
    cases s with
    | tx tx => cases hm
    | rx call | rxHang dl =>
      have hstay (s : PttState) (hs : s.rxSide = true) : turn P ⟨s, c⟩ (env, .audio frame) = (⟨s, c⟩, []) :=
        onAudio_of_rxSide P _ env frame hs
      rw [hstay _ rfl]
      exact .inl ⟨by simp, rfl, by simp⟩
    | idle =>
      have hidle : turn P ⟨.idle, c⟩ (env, .audio frame) = _ := onAudio_of_idle P c env frame
      rw [hidle]
      cases keyedFrame P.config (.audio frame) with
      | none => exact .inl ⟨fun _ => rfl, rfl, by simp⟩
      | some audio => exact .inr ⟨audio, rfl, rfl, rfl⟩
  | control event =>
    cases event
    cases s with
    | tx tx => cases hm
    | _ => exact .inl ⟨fun _ => rfl, rfl, by simp [turn, handle, onControl, onNetworkReset]⟩
  | timeout =>
    cases s with
    | tx tx => cases hm
    | rx call =>
      exact .inl ⟨fun _ => rfl, rfl, by simp [turn, handle, onTimeout, Output.dir, StatsEvent.dir, rxCallEnd]⟩
    | _ => exact .inl ⟨fun _ => rfl, rfl, by simp [turn, handle, onTimeout]⟩
  | shutdown =>
    cases s with
    | tx tx => cases hm
    | idle => exact .inl ⟨fun _ => rfl, rfl, by simp [turn, handle, onShutdown]⟩
    | _ => exact .inl ⟨fun _ => rfl, rfl, by simp [turn, handle, onShutdown, Output.dir, StatsEvent.dir, rxCallEnd]⟩

theorem onDmrd_of_tx (P : Params σ φ) (m : Machine σ φ) (env : Env) (pkt : Dmrd) (h : m.state.isTx = true) :
    onDmrd P m env pkt = (m, []) := by
  simp [onDmrd, h]

/-! ## One turn of an outgoing call -/

inductive TxTurn (P : Params σ φ) (env : Env) (c : Codec σ φ) (tx : TxCall) :
    PttEvent → Machine σ φ × List Output → Prop where
  | ignored {ev : PttEvent} (hkeyed : keyedFrame P.config ev = none) (hattempt : attempted P.config env tx ev = none) :
      TxTurn P env c tx ev (⟨.tx tx, c⟩, [])
  | buffered {ev : PttEvent} {audio : PcmFrame} (hkeyed : keyedFrame P.config ev = some audio)
      (hlen : tx.pcmBuf.length < 2) (hattempt : attempted P.config env tx ev = none) :
      TxTurn P env c tx ev (⟨.tx { tx with pcmBuf := tx.pcmBuf ++ [audio] }, c⟩, [])
  | burst {ev : PttEvent} {audio : PcmFrame} (hkeyed : keyedFrame P.config ev = some audio)
      (hlen : 2 ≤ tx.pcmBuf.length) (hattempt : attempted P.config env tx ev = some (tx.pcmBuf ++ [audio])) :
      TxTurn P env c tx ev
        (⟨.tx (sendBurst P c env { tx with pcmBuf := tx.pcmBuf ++ [audio] }).2.1,
          (sendBurst P c env { tx with pcmBuf := tx.pcmBuf ++ [audio] }).1⟩,
          (sendBurst P c env { tx with pcmBuf := tx.pcmBuf ++ [audio] }).2.2)
  | ended {ev : PttEvent} {reason : TerminationReason} (hkeyed : keyedFrame P.config ev = none)
      (hreason : endReason P.config env tx ev = some reason) :
      TxTurn P env c tx ev (endTx P ⟨.tx tx, c⟩ env tx reason)
  /-- The audio in the buffer is lost. -/
  | reset {event : ControlEvent} :
      TxTurn P env c tx (.control event) (⟨.idle, c⟩, [.stats (.callEnd .fmToDmr .networkReset)])

theorem turn_tx (P : Params σ φ) (env : Env) (c : Codec σ φ) (tx : TxCall) (ev : PttEvent) :
    TxTurn P env c tx ev (turn P ⟨.tx tx, c⟩ (env, ev)) := by
  cases ev with
  | control event =>
    cases event
    exact .reset
  | dmrd pkt =>
    have hturn : turn P ⟨.tx tx, c⟩ (env, .dmrd pkt) = (⟨.tx tx, c⟩, []) := onDmrd_of_tx P _ env pkt rfl
    rw [hturn]
    exact .ignored rfl rfl
  | shutdown => exact .ended rfl rfl
  | timeout =>
    show TxTurn P env c tx .timeout (onTimeout P ⟨.tx tx, c⟩ env)
    unfold onTimeout
    dsimp only
    split
    · rename_i hdue
      exact .ended rfl (by simp [endReason, hdue])
    · rename_i hdue
      exact .ignored rfl (by simp [attempted, endReason, hdue])
  | audio frame =>
    show TxTurn P env c tx (.audio frame) (onAudio P ⟨.tx tx, c⟩ env frame)
    unfold onAudio
    by_cases hgw : P.config.gateway = .dmrToFm
    · rw [if_pos hgw]
      exact .ignored (by simp [keyedFrame, hgw]) (by simp [attempted, endReason, hgw])
    rw [if_neg hgw]
    by_cases hkey : frame.keyup = true
    · simp only [hkey, Bool.not_true, Bool.false_eq_true, if_false]
      cases hframe : frame.samples with
      | none => exact .ignored (by simp [keyedFrame, hframe]) (by simp [attempted, endReason, hkey, hframe])
      | some audio =>
        have hkeyed : keyedFrame P.config (.audio frame) = some audio := by simp [keyedFrame, hgw, hkey, hframe]
        dsimp only
        split
        · rename_i hlen
          have hlen : 2 ≤ tx.pcmBuf.length := by simpa using hlen
          exact .burst hkeyed hlen (by simp [attempted, endReason, hgw, hkey, hframe, Nat.not_lt.mpr hlen])
        · rename_i hlen
          have hlen : tx.pcmBuf.length < 2 := by simp at hlen; omega
          exact .buffered hkeyed hlen (by simp [attempted, endReason, hkey, hlen])
    · rw [if_pos (by simpa using hkey)]
      exact .ended (by simp [keyedFrame, hkey]) (by simp [endReason, hgw, hkey])

/-! ## Every handler is one move -/

inductive TxMove (P : Params σ φ) (env : Env) (c : Codec σ φ) :
    PttEvent → PttState → PttState → List Output → Prop where
  /-- On the receive side, or nothing at all. -/
  | receive {ev : PttEvent} {s s' : PttState} {outs : List Output} (hs : s.isTx = false) (hs' : s'.isTx = false)
      (houts : ∀ o ∈ outs, o.dir = .dmrToFm) : TxMove P env c ev s s' outs
  | start {frame : AudioFrame} {audio : PcmFrame} {rotation : List Fragments} {hdr : DmrdPacket} {d : Dmrd}
      (hgw : P.config.gateway ≠ .dmrToFm) (hkey : frame.keyup = true) (hframe : frame.samples = some audio)
      (hrot : buildLcRotation P.config = some rotation) (hpos : 0 < rotation.length) (hhdr : dmrdOf hdr = some d)
      (hd : IsControlDmrd P.config 0 env.streamId dataTypeVoiceHeader d) :
      TxMove P env c (.audio frame) .idle
        (.tx { newTxCall env rotation hpos with dmrdSeq := 1, pcmBuf := [audio] })
        [txCallStart P.config, .control hdr]
  /-- The call goes on and nothing is sent. -/
  | keep {ev : PttEvent} {tx : TxCall} (hnone : attempted P.config env tx ev = none) :
      TxMove P env c ev (.tx tx) (.tx tx) []
  | buffer {frame : AudioFrame} {audio : PcmFrame} {tx : TxCall} (hkey : frame.keyup = true)
      (hlen : tx.pcmBuf.length < 2) :
      TxMove P env c (.audio frame) (.tx tx) (.tx { tx with pcmBuf := tx.pcmBuf ++ [audio] }) []
  | burst {frame : AudioFrame} {audio : PcmFrame} {tx tx' : TxCall} {outs : List Output}
      (hgw : P.config.gateway ≠ .dmrToFm) (hkey : frame.keyup = true) (hframe : frame.samples = some audio)
      (hlen : 2 ≤ tx.pcmBuf.length)
      (h : BurstMove P env c { tx with pcmBuf := tx.pcmBuf ++ [audio] } tx' outs) :
      TxMove P env c (.audio frame) (.tx tx) (.tx tx') outs
  | finish {ev : PttEvent} {tx tx' : TxCall} {flushed : List Output} {term : DmrdPacket} {d : Dmrd}
      {reason : TerminationReason} (hev : endReason P.config env tx ev = some reason)
      (hflush : FlushMove P env c tx tx' flushed) (hterm : dmrdOf term = some d)
      (hd : IsControlDmrd P.config tx'.dmrdSeq tx'.streamId dataTypeVoiceTerminator d) :
      TxMove P env c ev (.tx tx) .idle (flushed ++ [.control term, .stats (.callEnd .fmToDmr reason)])
  | reset {tx : TxCall} :
      TxMove P env c (.control .networkReset) (.tx tx) .idle [.stats (.callEnd .fmToDmr .networkReset)]

theorem TxTurn.move {P : Params σ φ} {env : Env} {c : Codec σ φ} {tx : TxCall} {ev : PttEvent}
    {r : Machine σ φ × List Output} (h : TxTurn P env c tx ev r) : TxMove P env c ev (.tx tx) r.1.state r.2 := by
  cases h with
  | ignored _ hattempt => exact .keep hattempt
  | buffered hkeyed hlen =>
    obtain ⟨frame, rfl, -, hkey, -⟩ := keyedFrame_eq_some hkeyed
    exact .buffer hkey hlen
  | burst hkeyed hlen =>
    obtain ⟨frame, rfl, hgw, hkey, hframe⟩ := keyedFrame_eq_some hkeyed
    exact .burst hgw hkey hframe hlen (sendBurst_move ..)
  | @ended _ reason _ hreason =>
    obtain ⟨term, d, hterm, hd, hend⟩ := endTx_spec P ⟨.tx tx, c⟩ env tx reason
    rw [hend]
    exact .finish hreason (flushTx_move P c env tx) hterm hd
  | reset => exact .reset

theorem handle_move (P : Params σ φ) (m : Machine σ φ) (env : Env) (ev : PttEvent) :
    TxMove P env m.codec ev m.state (handle P m env ev).1.state (handle P m env ev).2 := by
  by_cases hm : m.state.isTx = false
  · rcases turn_outside P m (env, ev) hm with ⟨-, hs', houts⟩ | ⟨audio, hs, hkeyed, hstart⟩
    · exact .receive hm hs' houts
    · obtain ⟨rotation, hpos, hdr, d, hrot, hhdr, hd, hstate, houts⟩ := startTx_spec P m env audio
      have hhandle : handle P m env ev = startTx P m env audio := hstart
      obtain ⟨frame, rfl, hgw, hkey, hframe⟩ := keyedFrame_eq_some hkeyed
      rw [hhandle, hs, hstate, houts]
      exact .start hgw hkey hframe hrot hpos hhdr hd
  · obtain ⟨s, c⟩ := m
    cases s with
    | tx tx => exact (turn_tx P env c tx ev).move
    | _ => exact absurd rfl hm

end DmrBridge
