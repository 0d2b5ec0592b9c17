import DmrBridge.Outbound
import DmrBridge.Usrp
import DmrBridge.Lib.Run

/-!
# Audio from the FM peer

`usrp::rx_task` and `voice_task` with the queue between them. The queue is short and a frame that
finds it full is dropped. If that frame is the unkey, the call stays open.
-/

open Run

namespace DmrBridge

variable {σ φ α : Type}

def voiceInDepth : Nat := 8

structure Levels (α : Type) where
  process : α → PcmFrame → α × PcmFrame
  reset : α → α
  limiter : Option (PcmFrame → PcmFrame)

structure RxConfig where
  host : Usrp.ByteOrder
  byteSwap : Bool

structure UsrpRx (σ φ α : Type) where
  machine : Machine σ φ
  /-- `voice_task` is in its loop. -/
  running : Bool
  /-- `rx_task` is in its loop. -/
  receiving : Bool
  audioIn : List AudioFrame
  agc : Option α
  hadVoice : Bool
  /-- The last voice packet that came is an unkey. -/
  unkeyed : Bool

inductive UsrpRxAction where
  | receive (fromRemote : Bool) (datagram : List UInt8)
  | takeAudio (env : Env)
  | handle (env : Env) (ev : PttEvent)
  | stop (env : Env)

namespace UsrpRx

/-! ## Steps -/

/-- A voice packet of the configured peer. The buffer cuts longer datagrams off. -/
def voicePacket (cfg : RxConfig) (fromRemote : Bool) (datagram : List UInt8) : Option Usrp.Frame :=
  if fromRemote then
    match Usrp.Frame.parse cfg.host (datagram.take (Usrp.packetSize + Usrp.recvSlack)) cfg.byteSwap with
    | .ok frame => if frame.frameType = .voice then some frame else none
    | .error _ => none
  else none

/-- `finalize_fm_in_agc_call` -/
def finalize (L : Levels α) (s : UsrpRx σ φ α) : UsrpRx σ φ α :=
  if s.hadVoice then { s with agc := s.agc.map L.reset, hadVoice := false } else s

def applyAgc (L : Levels α) (s : UsrpRx σ φ α) (frame : Usrp.Frame) : UsrpRx σ φ α × Option PcmFrame :=
  match s.agc with
  | none => (s, frame.audio)
  | some agc =>
    if frame.keyup then
      match frame.audio with
      | some pcm => ({ s with agc := some (L.process agc pcm).1, hadVoice := true }, some (L.process agc pcm).2)
      | none => (s, none)
    else (finalize L s, frame.audio)

def applyLimiter (L : Levels α) (frame : Usrp.Frame) (samples : Option PcmFrame) : Option PcmFrame :=
  match L.limiter with
  | some limiter => if frame.keyup then samples.map limiter else samples
  | none => samples

/-- A full queue drops the frame; a queue without its reader ends `rx_task`. -/
def trySend (L : Levels α) (s : UsrpRx σ φ α) (frame : AudioFrame) : UsrpRx σ φ α :=
  if s.running then
    if s.audioIn.length < voiceInDepth then { s with audioIn := s.audioIn ++ [frame] } else s
  else { finalize L s with receiving := false }

def receive (cfg : RxConfig) (L : Levels α) (s : UsrpRx σ φ α) (fromRemote : Bool) (datagram : List UInt8) :
    UsrpRx σ φ α :=
  match voicePacket cfg fromRemote datagram with
  | none => s
  | some frame =>
    let (s, samples) := applyAgc L { s with unkeyed := !frame.keyup } frame
    trySend L s { keyup := frame.keyup, samples := applyLimiter L frame samples, dmrStreamId := none }

def react (P : Params σ φ) (s : UsrpRx σ φ α) (env : Env) (ev : PttEvent) : UsrpRx σ φ α :=
  { s with machine := (DmrBridge.handle P s.machine env ev).1 }

def takeAudio (P : Params σ φ) (s : UsrpRx σ φ α) (env : Env) : Option (UsrpRx σ φ α) :=
  match s.audioIn with
  | [] => none
  | frame :: audioIn => if s.running then some { react P s env (.audio frame) with audioIn } else none

/-- Control events, timeouts and packets from the network come from elsewhere. -/
def isOther : PttEvent → Bool
  | .audio _ | .shutdown => false
  | _ => true

def step (P : Params σ φ) (cfg : RxConfig) (L : Levels α) (s : UsrpRx σ φ α) :
    UsrpRxAction → Option (UsrpRx σ φ α)
  | .receive fromRemote datagram => if s.receiving then some (receive cfg L s fromRemote datagram) else none
  | .takeAudio env => takeAudio P s env
  | .handle env ev => if s.running ∧ isOther ev then some (react P s env ev) else none
  | .stop env => if s.running then some { react P s env .shutdown with running := false } else none

def start (vocoder : σ) (filter : Option φ) (agc : Option α) : UsrpRx σ φ α where
  machine := newMachine vocoder filter
  running := true
  receiving := true
  audioIn := []
  agc := agc
  hadVoice := false
  unkeyed := false

/-! ## The release of the key -/

/-- After an unkey, with nothing more to take from the queue, no outgoing call is open. -/
def KeyReleased (s : UsrpRx σ φ α) : Prop := s.unkeyed = true → s.audioIn = [] → s.machine.state.isTx = false

def isReceive : UsrpRxAction → Bool
  | .receive .. => true
  | _ => false

/-- In each state of the run and in each state that `voice_task` can reach from there. -/
def NoLostUnkey (P : Params σ φ) (cfg : RxConfig) (L : Levels α) (s : UsrpRx σ φ α) (as : List UsrpRxAction) : Prop :=
  Along (step P cfg L)
    (fun s a => ∀ t, step P cfg L s a = some t → ∀ bs u, (∀ b ∈ bs, isReceive b = false) →
      runs (step P cfg L) t bs = some u → KeyReleased u) s as

/-- Whether an outgoing call is open once `frame` is handled outside of an incoming one. -/
def keyNext (isTx : Bool) (frame : AudioFrame) : Bool := frame.keyup && (frame.samples.isSome || isTx)

def keyedAfter (s : UsrpRx σ φ α) : Bool := s.audioIn.foldl keyNext s.machine.state.isTx

/-- An unkey finds room in the queue, or everything that is ahead of it amounts to an unkey. -/
def Heard (P : Params σ φ) (cfg : RxConfig) (s : UsrpRx σ φ α) : UsrpRxAction → Prop
  | .receive fromRemote datagram =>
    ∀ frame, s.receiving = true → s.running = true → voicePacket cfg fromRemote datagram = some frame →
      frame.keyup = false →
      s.audioIn.length < voiceInDepth ∨ P.config.gateway = .dmrToFm ∨ keyedAfter s = false
  | _ => True

/-! ## One frame -/

theorem keyNext_mono {b b' : Bool} (h : b = true → b' = true) (frame : AudioFrame) :
    keyNext b frame = true → keyNext b' frame = true := by
  simp only [keyNext, Bool.and_eq_true, Bool.or_eq_true]
  tauto

theorem foldl_keyNext_mono {b b' : Bool} (h : b = true → b' = true) (frames : List AudioFrame) :
    frames.foldl keyNext b = true → frames.foldl keyNext b' = true := by
  induction frames generalizing b b' with
  | nil => exact h
  | cons frame frames ih => exact ih (keyNext_mono h frame)

theorem endTx_state (P : Params σ φ) (m : Machine σ φ) (env : Env) (tx : TxCall) (reason : TerminationReason) :
    (endTx P m env tx reason).1.state = .idle := by
  obtain ⟨term, d, -, -, hend⟩ := endTx_spec P m env tx reason
  rw [hend]

theorem onAudio_isTx (P : Params σ φ) (m : Machine σ φ) (env : Env) (frame : AudioFrame)
    (hgw : P.config.gateway ≠ .dmrToFm) (hs : m.state.rxSide = false) :
    (onAudio P m env frame).1.state.isTx = keyNext m.state.isTx frame ∧
      (onAudio P m env frame).1.state.rxSide = false := by
  obtain ⟨s, c⟩ := m
  unfold onAudio keyNext
  rw [if_neg hgw]
  by_cases hkey : frame.keyup = true
  · simp only [hkey, Bool.not_true, Bool.false_eq_true, if_false, Bool.true_and]
    cases hframe : frame.samples with
    | none => exact ⟨rfl, hs⟩
    | some audio =>
      cases s with
      | idle =>
        obtain ⟨rotation, hpos, hdr, d, -, -, -, hstate, -⟩ := startTx_spec P ⟨.idle, c⟩ env audio
        simp only [hstate]
        exact ⟨rfl, rfl⟩
      | tx tx =>
        dsimp only
        split <;> exact ⟨rfl, rfl⟩
      | rx | rxHang => cases hs
  · simp only [hkey, Bool.not_false, if_true, Bool.false_and]
    cases s with
    | tx tx =>
      simp only [endTx_state]
      exact ⟨rfl, rfl⟩
    | idle => exact ⟨rfl, rfl⟩
    | rx | rxHang => cases hs

theorem isTx_eq_openCall (s : PttState) : s.isTx = s.openCall.isSome := by
  cases s <;> rfl

theorem isTx_of_not_audio (P : Params σ φ) (m : Machine σ φ) (env : Env) (ev : PttEvent)
    (hev : ∀ frame, ev ≠ .audio frame) (h : (DmrBridge.handle P m env ev).1.state.isTx = true) :
    m.state.isTx = true := by
  have hnone := opened_of_not_audio P m env ev hev
  rw [isTx_eq_openCall] at h ⊢
  unfold opened at hnone
  split at hnone
  · rw [Option.map_eq_none_iff] at hnone
    rw [hnone] at h
    cases h
  · rename_i hopen
    exact Option.isSome_iff_ne_none.mpr fun hclosed => hopen (by rw [hclosed]; rfl)

/-! ## What a step can do -/

/-- What `rx_task` does with a voice packet, but for the levels. -/
structure Received (s : UsrpRx σ φ α) (frame : Usrp.Frame) (t : UsrpRx σ φ α) : Prop where
  machine : t.machine = s.machine
  running : t.running = s.running
  unkeyed : t.unkeyed = !frame.keyup
  audioIn : ∃ audio : AudioFrame, audio.keyup = frame.keyup ∧
    t.audioIn = if s.running ∧ s.audioIn.length < voiceInDepth then s.audioIn ++ [audio] else s.audioIn

theorem finalize_received {L : Levels α} {s t : UsrpRx σ φ α} {frame : Usrp.Frame} (h : Received s frame t) :
    Received s frame (finalize L t) := by
  unfold finalize
  split
  · exact ⟨h.machine, h.running, h.unkeyed, h.audioIn⟩
  · exact h

theorem trySend_received (L : Levels α) {s t : UsrpRx σ φ α} {frame : Usrp.Frame} {audio : AudioFrame}
    (hmachine : t.machine = s.machine) (hrunning : t.running = s.running) (hunkeyed : t.unkeyed = !frame.keyup)
    (haudio : t.audioIn = s.audioIn) (hkey : audio.keyup = frame.keyup) : Received s frame (trySend L t audio) := by
  unfold trySend
  cases hrun : s.running with
  | false =>
    have hsame : Received s frame t :=
      ⟨hmachine, hrunning, hunkeyed, audio, hkey, by simp [hrun, haudio]⟩
    have hend := finalize_received (L := L) hsame
    rw [if_neg (by simp [hrunning, hrun])]
    exact ⟨hend.machine, hend.running, hend.unkeyed, hend.audioIn⟩
  | true =>
    rw [if_pos (hrunning.trans hrun), haudio]
    split
    · rename_i hroom
      exact ⟨hmachine, hrunning, hunkeyed, audio, hkey, by simp [hrun, hroom]⟩
    · rename_i hfull
      exact ⟨hmachine, hrunning, hunkeyed, audio, hkey, by simp [hrun, hfull, haudio]⟩

theorem receive_received {cfg : RxConfig} {L : Levels α} {s : UsrpRx σ φ α} {fromRemote : Bool}
    {datagram : List UInt8} {frame : Usrp.Frame} (h : voicePacket cfg fromRemote datagram = some frame) :
    Received s frame (receive cfg L s fromRemote datagram) := by
  have hagc : ∀ t : UsrpRx σ φ α, (applyAgc L t frame).1.machine = t.machine ∧
      (applyAgc L t frame).1.running = t.running ∧ (applyAgc L t frame).1.unkeyed = t.unkeyed ∧
      (applyAgc L t frame).1.audioIn = t.audioIn := by
    intro t
    unfold applyAgc finalize
    split
    · exact ⟨rfl, rfl, rfl, rfl⟩
    · split
      · split <;> exact ⟨rfl, rfl, rfl, rfl⟩
      · dsimp only
        split <;> exact ⟨rfl, rfl, rfl, rfl⟩
  obtain ⟨hmachine, hrunning, hunkeyed, haudio⟩ := hagc { s with unkeyed := !frame.keyup }
  unfold receive
  rw [h]
  exact trySend_received L hmachine hrunning hunkeyed haudio rfl

inductive Move (P : Params σ φ) (cfg : RxConfig) (s : UsrpRx σ φ α) : UsrpRxAction → UsrpRx σ φ α → Prop where
  | ignored {fromRemote : Bool} {datagram : List UInt8} (hpacket : voicePacket cfg fromRemote datagram = none) :
      Move P cfg s (.receive fromRemote datagram) s
  | received {fromRemote : Bool} {datagram : List UInt8} {frame : Usrp.Frame} {t : UsrpRx σ φ α}
      (hreceiving : s.receiving = true) (hpacket : voicePacket cfg fromRemote datagram = some frame)
      (h : Received s frame t) : Move P cfg s (.receive fromRemote datagram) t
  | takeAudio {env : Env} {frame : AudioFrame} {audioIn : List AudioFrame} (hrunning : s.running = true)
      (haudio : s.audioIn = frame :: audioIn) :
      Move P cfg s (.takeAudio env) { react P s env (.audio frame) with audioIn }
  | handle {env : Env} {ev : PttEvent} (hrunning : s.running = true) (hother : isOther ev = true) :
      Move P cfg s (.handle env ev) (react P s env ev)
  | stop {env : Env} : Move P cfg s (.stop env) { react P s env .shutdown with running := false }

theorem step_move {P : Params σ φ} {cfg : RxConfig} {L : Levels α} {s t : UsrpRx σ φ α} {a : UsrpRxAction}
    (h : step P cfg L s a = some t) : Move P cfg s a t := by
  cases a with
  | receive fromRemote datagram =>
    simp only [step, Option.ite_none_right_eq_some, Option.some.injEq] at h
    obtain ⟨hreceiving, rfl⟩ := h
    cases hpacket : voicePacket cfg fromRemote datagram with
    | none =>
      unfold receive
      rw [hpacket]
      exact .ignored hpacket
    | some frame => exact .received hreceiving hpacket (receive_received hpacket)
  | takeAudio env =>
    simp only [step, takeAudio] at h
    split at h
    · cases h
    · rename_i frame audioIn haudio
      simp only [Option.ite_none_right_eq_some, Option.some.injEq] at h
      obtain ⟨hrunning, rfl⟩ := h
      exact .takeAudio hrunning haudio
  | handle env ev =>
    simp only [step, Option.ite_none_right_eq_some, Option.some.injEq] at h
    obtain ⟨⟨hrunning, hother⟩, rfl⟩ := h
    exact .handle hrunning hother
  | stop env =>
    simp only [step, Option.ite_none_right_eq_some, Option.some.injEq] at h
    obtain ⟨-, rfl⟩ := h
    exact .stop

/-! ## What a step keeps -/

structure Sound (P : Params σ φ) (s : UsrpRx σ φ α) : Prop where
  stopped : s.running = false → s.machine.state.isTx = false
  oneWay : P.config.gateway = .dmrToFm → s.machine.state.isTx = false

/-- After an unkey, what waits in the queue leaves no call open. -/
def Quiet (P : Params σ φ) (s : UsrpRx σ φ α) : Prop :=
  s.unkeyed = true → s.running = true → P.config.gateway = .dmrToFm ∨ keyedAfter s = false

theorem not_isTx_of_rxSide {s : PttState} (h : s.rxSide = true) : s.isTx = false := by
  cases s with
  | rx | rxHang => rfl
  | idle | tx => cases h

theorem keyNext_of_react {P : Params σ φ} {s : UsrpRx σ φ α} (hsound : Sound P s) (env : Env) (frame : AudioFrame)
    (h : (react P s env (.audio frame)).machine.state.isTx = true) : keyNext s.machine.state.isTx frame = true := by
  change (onAudio P s.machine env frame).1.state.isTx = true at h
  by_cases hgw : P.config.gateway = .dmrToFm
  · rw [onAudio, if_pos hgw, hsound.oneWay hgw] at h
    cases h
  · by_cases hs : s.machine.state.rxSide = true
    · rw [onAudio_of_rxSide P s.machine env frame hs, not_isTx_of_rxSide hs] at h
      cases h
    · rw [← (onAudio_isTx P s.machine env frame hgw (by simpa using hs)).1]
      exact h

theorem shutdown_isTx (P : Params σ φ) (m : Machine σ φ) (env : Env) : (onShutdown P m env).1.state.isTx = false := by
  unfold onShutdown
  split
  · rfl
  · rfl
  · rw [endTx_state]
    rfl
  · rename_i hs
    rw [hs]
    rfl

theorem not_audio_of_isOther {ev : PttEvent} (h : isOther ev = true) (frame : AudioFrame) : ev ≠ .audio frame := by
  rintro rfl
  cases h

theorem sound_step {P : Params σ φ} {cfg : RxConfig} {L : Levels α} {s t : UsrpRx σ φ α} {a : UsrpRxAction}
    (h : Sound P s) (hstep : step P cfg L s a = some t) : Sound P t := by
  cases step_move hstep with
  | ignored => exact h
  | received _ _ hrec =>
    refine ⟨fun hstop => ?_, fun hgw => ?_⟩
    · rw [hrec.machine]
      rw [hrec.running] at hstop
      exact h.stopped hstop
    · rw [hrec.machine]
      exact h.oneWay hgw
  | takeAudio hrunning =>
    refine ⟨fun hstop => absurd (hrunning.symm.trans hstop) (by decide), fun hgw => ?_⟩
    simp only [react, DmrBridge.handle, onAudio, hgw, if_true]
    exact h.oneWay hgw
  | @handle env ev hrunning hother =>
    refine ⟨fun hstop => absurd (hrunning.symm.trans hstop) (by decide), fun hgw => ?_⟩
    by_contra hopen
    have htx := isTx_of_not_audio P s.machine env ev (not_audio_of_isOther hother) (by simpa [react] using hopen)
    rw [h.oneWay hgw] at htx
    cases htx
  | @stop env => exact ⟨fun _ => shutdown_isTx P s.machine env, fun _ => shutdown_isTx P s.machine env⟩

theorem heard_receive_iff {P : Params σ φ} {cfg : RxConfig} {s : UsrpRx σ φ α} {fromRemote : Bool}
    {datagram : List UInt8} {frame : Usrp.Frame} (hreceiving : s.receiving = true)
    (hpacket : voicePacket cfg fromRemote datagram = some frame) :
    Heard P cfg s (.receive fromRemote datagram) ↔ (s.running = true → frame.keyup = false →
      s.audioIn.length < voiceInDepth ∨ P.config.gateway = .dmrToFm ∨ keyedAfter s = false) := by
  constructor
  · exact fun h hrunning hkey => h frame hreceiving hrunning hpacket hkey
  · intro h other _ hrunning hother
    obtain rfl : frame = other := Option.some.inj (hpacket.symm.trans hother)
    exact h hrunning

theorem quiet_receive_iff {P : Params σ φ} {s t : UsrpRx σ φ α} {frame : Usrp.Frame} (h : Received s frame t) :
    Quiet P t ↔ (s.running = true → frame.keyup = false →
      s.audioIn.length < voiceInDepth ∨ P.config.gateway = .dmrToFm ∨ keyedAfter s = false) := by
  obtain ⟨audio, hkey, haudio⟩ := h.audioIn
  unfold Quiet
  rw [h.unkeyed, h.running]
  cases hframe : frame.keyup with
  | true => exact iff_of_true (by simp) (by simp)
  | false =>
    by_cases hroom : s.running = true ∧ s.audioIn.length < voiceInDepth
    · -- The unkey comes last, whatever is before it.
      have hquiet : keyedAfter t = false := by
        unfold keyedAfter
        rw [haudio, if_pos hroom, List.foldl_append, List.foldl_cons, List.foldl_nil, keyNext, hkey, hframe]
        rfl
      exact iff_of_true (fun _ _ => .inr hquiet) fun _ _ => .inl hroom.2
    · have hsame : keyedAfter t = keyedAfter s := by
        unfold keyedAfter
        rw [haudio, if_neg hroom, h.machine]
      rw [hsame]
      constructor
      · exact fun hq hrunning _ => .inr (hq rfl hrunning)
      · intro hq _ hrunning
        rcases hq hrunning rfl with hlt | hrest
        · exact absurd ⟨hrunning, hlt⟩ hroom
        · exact hrest

/-- An unkey that is not heard is the one way out of `Quiet`. -/
theorem quiet_step {P : Params σ φ} {cfg : RxConfig} {L : Levels α} {s t : UsrpRx σ φ α} {a : UsrpRxAction}
    (hsound : Sound P s) (h : Quiet P s) (hstep : step P cfg L s a = some t) : Quiet P t ↔ Heard P cfg s a := by
  cases step_move hstep with
  | ignored hpacket =>
    unfold Heard
    simp only [hpacket]
    exact ⟨by simp, fun _ => h⟩
  | received hreceiving hpacket hrec =>
    exact (quiet_receive_iff hrec).trans (heard_receive_iff hreceiving hpacket).symm
  | @takeAudio env frame audioIn hrunning haudio =>
    refine iff_of_true (fun hunkeyed _ => ?_) trivial
    rcases h hunkeyed hrunning with hgw | hquiet
    · exact .inl hgw
    · right
      rw [keyedAfter, haudio, List.foldl_cons] at hquiet
      by_contra hkeyed
      have hmono := foldl_keyNext_mono (keyNext_of_react hsound env frame) audioIn (by simpa [keyedAfter] using hkeyed)
      rw [hquiet] at hmono
      cases hmono
  | @handle env ev hrunning hother =>
    refine iff_of_true (fun hunkeyed _ => ?_) trivial
    rcases h hunkeyed hrunning with hgw | hquiet
    · exact .inl hgw
    · right
      by_contra hkeyed
      have hmono := foldl_keyNext_mono (isTx_of_not_audio P s.machine env ev (not_audio_of_isOther hother)) s.audioIn
        (by simpa [keyedAfter, react] using hkeyed)
      rw [keyedAfter] at hquiet
      rw [hquiet] at hmono
      cases hmono
  | stop =>
    refine iff_of_true ?_ trivial
    simp [Quiet]

/-! ## What `voice_task` makes of the queue -/

theorem keyReleased_of_quiet {P : Params σ φ} {s : UsrpRx σ φ α} (hsound : Sound P s) (h : Quiet P s) :
    KeyReleased s := by
  intro hunkeyed hempty
  cases hrunning : s.running with
  | false => exact hsound.stopped hrunning
  | true =>
    rcases h hunkeyed hrunning with hgw | hquiet
    · exact hsound.oneWay hgw
    · rw [keyedAfter, hempty] at hquiet
      exact hquiet

/-- Two timeouts at most take the machine out of an incoming call. -/
theorem leaves_receive (P : Params σ φ) (cfg : RxConfig) (L : Levels α) (s : UsrpRx σ φ α)
    (hrunning : s.running = true) :
    ∃ bs t, (∀ b ∈ bs, isReceive b = false) ∧ runs (step P cfg L) s bs = some t ∧ t.machine.state.rxSide = false ∧
      t.machine.state.isTx = s.machine.state.isTx ∧ t.audioIn = s.audioIn ∧ t.unkeyed = s.unkeyed ∧
      t.running = true := by
  let timeout : UsrpRxAction := .handle (sampleEnv 0 0) .timeout
  have hhang (u : UsrpRx σ φ α) (dl : Instant) (hu : u.machine.state = .rxHang dl) (hrun : u.running = true) :
      step P cfg L u timeout = some { u with machine := ⟨.idle, u.machine.codec⟩ } := by
    simp [timeout, step, hrun, isOther, react, DmrBridge.handle, onTimeout, hu]
  cases hs : s.machine.state with
  | idle | tx =>
    exact ⟨[], s, by simp, rfl, by rw [hs]; rfl, by rw [hs], rfl, rfl, hrunning⟩
  | rxHang dl =>
    refine ⟨[timeout], { s with machine := ⟨.idle, s.machine.codec⟩ }, by simp [timeout, isReceive], ?_, rfl, rfl, rfl,
      rfl, hrunning⟩
    rw [runs_cons, hhang s dl hs hrunning]
    rfl
  | rx call =>
    refine ⟨[timeout, timeout], { s with machine := ⟨.idle, s.machine.codec⟩ }, by simp [timeout, isReceive], ?_, rfl,
      rfl, rfl, rfl, hrunning⟩
    have hcall : step P cfg L s timeout =
        some { s with machine := ⟨.rxHang ((sampleEnv 0 0).now + P.config.hangTime), s.machine.codec⟩ } := by
      simp [timeout, step, hrunning, isOther, react, DmrBridge.handle, onTimeout, hs]
    have hidle := hhang { s with machine := ⟨.rxHang ((sampleEnv 0 0).now + P.config.hangTime), s.machine.codec⟩ } _ rfl
      hrunning
    rw [runs_cons, hcall, Option.bind_some, runs_cons, hidle]
    rfl

/-- Outside of incoming calls the queue alone decides what is open at its end. -/
theorem drains (P : Params σ φ) (cfg : RxConfig) (L : Levels α) (s : UsrpRx σ φ α) (hrunning : s.running = true)
    (hgw : P.config.gateway ≠ .dmrToFm) (hs : s.machine.state.rxSide = false) :
    ∃ bs t, (∀ b ∈ bs, isReceive b = false) ∧ runs (step P cfg L) s bs = some t ∧ t.audioIn = [] ∧
      t.machine.state.isTx = keyedAfter s ∧ t.unkeyed = s.unkeyed := by
  generalize haudio : s.audioIn = audioIn
  induction audioIn generalizing s with
  | nil => exact ⟨[], s, by simp, rfl, haudio, by rw [keyedAfter, haudio]; rfl, rfl⟩
  | cons frame audioIn ih =>
    obtain ⟨hopen, hside⟩ := onAudio_isTx P s.machine (sampleEnv 0 0) frame hgw hs
    obtain ⟨bs, t, hbs, hrun, hempty, htx, hunkeyed⟩ :=
      ih { react P s (sampleEnv 0 0) (.audio frame) with audioIn } hrunning hside rfl
    refine ⟨.takeAudio (sampleEnv 0 0) :: bs, t, ?_, ?_, hempty, ?_, hunkeyed⟩
    · intro b hb
      rcases List.mem_cons.mp hb with rfl | hb
      · rfl
      · exact hbs b hb
    · rw [runs_cons, step, takeAudio, haudio]
      simp only [hrunning, if_true]
      exact hrun
    · rw [htx, keyedAfter, keyedAfter, haudio, List.foldl_cons, ← hopen]
      rfl

theorem released_iff_quiet {P : Params σ φ} {cfg : RxConfig} {L : Levels α} {s : UsrpRx σ φ α} (hsound : Sound P s) :
    (∀ bs u, (∀ b ∈ bs, isReceive b = false) → runs (step P cfg L) s bs = some u → KeyReleased u) ↔ Quiet P s := by
  constructor
  · intro h hunkeyed hrunning
    by_cases hgw : P.config.gateway = .dmrToFm
    · exact .inl hgw
    right
    by_contra hkeyed
    obtain ⟨bs, t, hbs, hrun, hside, hopen, haudio, hsame, hstill⟩ := leaves_receive P cfg L s hrunning
    obtain ⟨cs, u, hcs, hrun', hempty, htx, hsame'⟩ := drains P cfg L t hstill hgw hside
    have hreleased : KeyReleased u := by
      apply h (bs ++ cs) u
      · intro b hb
        rcases List.mem_append.mp hb with hb | hb
        · exact hbs b hb
        · exact hcs b hb
      · rw [runs_append hrun]
        exact hrun'
    have hclosed := hreleased (hsame'.trans (hsame.trans hunkeyed)) hempty
    rw [htx, keyedAfter, haudio, hopen] at hclosed
    exact hkeyed hclosed
  · intro h bs u hbs hrun
    have hkept (s : UsrpRx σ φ α) (a : UsrpRxAction) (t : UsrpRx σ φ α) (hs : Sound P s ∧ Quiet P s)
        (ha : isReceive a = false) (hstep : step P cfg L s a = some t) : Sound P t ∧ Quiet P t := by
      refine ⟨sound_step hs.1 hstep, (quiet_step hs.1 hs.2 hstep).mpr ?_⟩
      cases a with
      | receive => cases ha
      | _ => trivial
    obtain ⟨hsound', hquiet⟩ := runs_invariant hkept ⟨hsound, h⟩ (along_of_mem hbs s) hrun
    exact keyReleased_of_quiet hsound' hquiet

/-! ## Whole runs -/

/-- No unkey is lost in exactly the runs in which each one is heard. -/
theorem noLostUnkey_iff (P : Params σ φ) (cfg : RxConfig) (L : Levels α) (vocoder : σ) (filter : Option φ)
    (agc : Option α) (as : List UsrpRxAction) :
    NoLostUnkey P cfg L (start vocoder filter agc) as ↔
      Along (step P cfg L) (Heard P cfg) (start vocoder filter agc) as := by
  apply along_congr_of_invariant fun s => Sound P s ∧ Quiet P s
  · intro s a t hs hheard hstep
    exact ⟨sound_step hs.1 hstep, (quiet_step hs.1 hs.2 hstep).mpr hheard⟩
  · intro s a hs
    constructor
    · intro h
      cases hnext : step P cfg L s a with
      | some t =>
        have hsound := sound_step hs.1 hnext
        exact (quiet_step hs.1 hs.2 hnext).mp ((released_iff_quiet hsound).mp (h t hnext))
      | none =>
        cases a with
        | receive fromRemote datagram =>
          intro frame hreceiving
          simp [step, hreceiving] at hnext
        | _ => trivial
    · intro hheard t hstep
      exact (released_iff_quiet (sound_step hs.1 hstep)).mpr ((quiet_step hs.1 hs.2 hstep).mpr hheard)
  · exact ⟨⟨fun _ => rfl, fun _ => rfl⟩, by simp [Quiet, start]⟩

/-! ## An unkey that is lost -/

def sampleRx : RxConfig := ⟨.little, false⟩

def noLevels : Levels Unit := ⟨fun agc pcm => (agc, pcm), id, none⟩

def sampleUsrp (keyup : Bool) : List UInt8 :=
  Usrp.magic ++ List.replicate 8 0 ++ [0, 0, 0, if keyup then 1 else 0] ++ List.replicate 16 0 ++
    if keyup then List.replicate 320 0 else []

/-- A call is open and `voice_task` falls behind by eight frames: the unkey is dropped. -/
theorem lost_unkey :
    ∃ t, runs (step sampleParams sampleRx noLevels) (start () none none)
        ([.receive true (sampleUsrp true), .takeAudio (sampleEnv 0 3)] ++
          List.replicate 8 (.receive true (sampleUsrp true)) ++ [.receive true (sampleUsrp false)] ++
          List.replicate 8 (.takeAudio (sampleEnv 1 0))) = some t ∧ ¬ KeyReleased t := by
  have hrun : (runs (step sampleParams sampleRx noLevels) (start () none none)
      ([.receive true (sampleUsrp true), .takeAudio (sampleEnv 0 3)] ++
        List.replicate 8 (.receive true (sampleUsrp true)) ++ [.receive true (sampleUsrp false)] ++
        List.replicate 8 (.takeAudio (sampleEnv 1 0)))).any
      (fun t => decide (t.unkeyed = true ∧ t.audioIn = [] ∧ t.machine.state.isTx = true)) = true := by
    decide +kernel
  obtain ⟨t, ht, hend⟩ := (Option.any_eq_true ..).mp hrun
  obtain ⟨hunkeyed, hempty, hopen⟩ := of_decide_eq_true hend
  refine ⟨t, ht, fun hreleased => ?_⟩
  rw [hreleased hunkeyed hempty] at hopen
  cases hopen

end UsrpRx

end DmrBridge
