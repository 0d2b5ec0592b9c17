import DmrBridge.Rx
import DmrBridge.Lib.Run
import Mathlib.Data.List.Chain

/-!
# Bracketing of incoming calls

What FM and the statistics see of incoming calls is a list of calls, one after the other. The
one way out of order is a header of another stream inside a call: it starts the new call without
the end of the old one.
-/

open Run

namespace DmrBridge

variable {σ φ : Type}

/-- One incoming call as FM hears it. `hangUnkey` is the unkey without an id of a shutdown in the hang time. -/
structure RxSegment where
  streamId : UInt32
  frames : List PcmFrame
  hangUnkey : Bool

def RxSegment.keyed (seg : RxSegment) : List AudioFrame := seg.frames.map (makeVoiceFrame · seg.streamId)

def RxSegment.closed (seg : RxSegment) : List AudioFrame :=
  seg.keyed ++ makeUnkeyFrame (some seg.streamId) :: if seg.hangUnkey then [makeUnkeyFrame none] else []

inductive Boundary where
  | start
  | stop
  deriving DecidableEq

def boundaryOf : Output → Option Boundary
  | .stats (.callStart .dmrToFm ..) => some .start
  | .stats (.callEnd .dmrToFm _) => some .stop
  | _ => none

def audioOf : Output → Option AudioFrame
  | .audio frame => some frame
  | _ => none

/-- The log is `calls`, all ended, and then perhaps one that is still open in `state`. -/
structure BracketedBy (log : List Output) (state : PttState) (calls : List RxSegment)
    (last : Option RxSegment) : Prop where
  boundaries : log.filterMap boundaryOf = calls.flatMap (fun _ => [.start, .stop]) ++ last.elim [] fun _ => [.start]
  audio : log.filterMap audioOf = calls.flatMap RxSegment.closed ++ last.elim [] RxSegment.keyed
  state_open : last.map RxSegment.streamId = state.rxStream

def Bracketed (log : List Output) (state : PttState) : Prop := ∃ calls last, BracketedBy log state calls last

/-- A header that passes the guards and is not of the stream coming in. -/
def headerInsideCall (config : VoiceConfig) (state : PttState) : PttEvent → Prop
  | .dmrd pkt =>
    config.gateway ≠ .fmToDmr ∧ matchesConfig pkt config ∧ pkt.frameType = .dataSync ∧
      pkt.dtypeVseq = dataTypeVoiceHeader ∧ ∃ call, state = .rx call ∧ call.streamId ≠ pkt.streamId
  | _ => False

def NoHeaderInsideCall (P : Params σ φ) (m : Machine σ φ) (evs : List (Env × PttEvent)) : Prop :=
  Along (turnState P) (fun m e => ¬ headerInsideCall P.config m.state e.2) m evs

/-! ## What a step adds -/

theorem boundaries_of_dir {outs : List Output} (h : ∀ o ∈ outs, o.dir = .fmToDmr) :
    outs.filterMap boundaryOf = [] := by
  rw [List.filterMap_eq_nil_iff]
  intro o ho
  have hdir := h o ho
  match o with
  | .stats (.callStart d ..) | .stats (.callEnd d _) => cases hdir; rfl
  | .stats (.voiceFrame ..) | .stats (.drop _) => rfl
  | .voice .. | .control _ | .panicked => rfl

theorem audio_of_dir {outs : List Output} (h : ∀ o ∈ outs, o.dir = .fmToDmr) : outs.filterMap audioOf = [] := by
  rw [List.filterMap_eq_nil_iff]
  intro o ho
  have hdir := h o ho
  match o with
  | .stats _ | .voice .. | .control _ | .panicked => rfl

theorem emitCallMetadata_silent (P : Params σ φ) (pkt : Dmrd) :
    (emitCallMetadata P pkt).filterMap boundaryOf = [] ∧ (emitCallMetadata P pkt).filterMap audioOf = [] := by
  unfold emitCallMetadata
  split <;> exact ⟨rfl, rfl⟩

theorem voiceOutputs_boundaries {sid : UInt32} {frames : List Output} (h : ∀ o ∈ frames, VoiceOutput sid o) :
    frames.filterMap boundaryOf = [] := by
  rw [List.filterMap_eq_nil_iff]
  intro o ho
  have hv := h o ho
  match o with
  | .audio _ | .metadata _ | .voice .. | .control _ | .panicked => rfl
  | .stats (.voiceFrame ..) | .stats (.drop _) => rfl
  | .stats (.callStart ..) | .stats (.callEnd ..) => exact hv.elim

theorem voiceOutputs_audio {sid : UInt32} {frames : List Output} (h : ∀ o ∈ frames, VoiceOutput sid o) :
    ∃ pcms : List PcmFrame, frames.filterMap audioOf = pcms.map (makeVoiceFrame · sid) := by
  induction frames with
  | nil => exact ⟨[], rfl⟩
  | cons o frames ih =>
    obtain ⟨pcms, hpcms⟩ := ih fun o' ho' => h o' (List.mem_cons_of_mem o ho')
    have hv := h o List.mem_cons_self
    match o with
    | .audio frame =>
      obtain ⟨pcm, rfl⟩ := hv
      exact ⟨pcm :: pcms, by simp [audioOf, hpcms]⟩
    | .stats _ | .metadata _ | .voice .. | .control _ | .panicked =>
      exact ⟨pcms, by rw [List.filterMap_cons_none rfl, hpcms]⟩

theorem filterMap_drops {α : Type} (f : Output → Option α) (hf : f (.stats (.drop .dmrToFm)) = none) (n : Nat) :
    (List.replicate n (Output.stats (.drop .dmrToFm))).filterMap f = [] := by
  rw [List.filterMap_eq_nil_iff]
  intro o ho
  rw [List.eq_of_mem_replicate ho, hf]

theorem boundaryOutputs_boundaries (P : Params σ φ) (pkt : Dmrd) (e : VoiceEntry) :
    (boundaryOutputs P pkt e).filterMap boundaryOf =
      e.priorCallEnd.elim [] (fun _ => [.stop]) ++ if e.callStart then [.start] else [] := by
  have hmeta := (emitCallMetadata_silent P pkt).1
  have hdrops := filterMap_drops boundaryOf rfl e.gap.toNat
  rcases e with ⟨call, _ | prior, _ | _, gap⟩ <;>
    simp [boundaryOutputs, List.filterMap_cons, hmeta, hdrops, boundaryOf, rxCallStart, rxCallEnd]

theorem boundaryOutputs_audio (P : Params σ φ) (pkt : Dmrd) (e : VoiceEntry) :
    (boundaryOutputs P pkt e).filterMap audioOf =
      e.priorCallEnd.elim [] fun prior => [makeUnkeyFrame (some prior)] := by
  have hmeta := (emitCallMetadata_silent P pkt).2
  have hdrops := filterMap_drops audioOf rfl e.gap.toNat
  rcases e with ⟨call, _ | prior, _ | _, gap⟩ <;>
    simp [boundaryOutputs, List.filterMap_cons, hmeta, hdrops, audioOf, rxCallStart, rxCallEnd]

/-! ## One step -/

section
variable {log outs : List Output} {s s' : PttState} {calls : List RxSegment} {seg : RxSegment}

theorem BracketedBy.idle (h : BracketedBy log s calls none) (hb : outs.filterMap boundaryOf = [])
    (ha : outs.filterMap audioOf = []) (hs : s'.rxStream = none) : BracketedBy (log ++ outs) s' calls none :=
  ⟨by simp [hb, h.boundaries], by simp [ha, h.audio], by simp [hs]⟩

theorem BracketedBy.begin (h : BracketedBy log s calls none) (hb : outs.filterMap boundaryOf = [.start])
    (ha : outs.filterMap audioOf = seg.keyed) (hs : s'.rxStream = some seg.streamId) :
    BracketedBy (log ++ outs) s' calls (some seg) :=
  ⟨by simp [hb, h.boundaries], by simp [ha, h.audio], by simp [hs]⟩

theorem BracketedBy.extend (h : BracketedBy log s calls (some seg)) (pcms : List PcmFrame)
    (hb : outs.filterMap boundaryOf = []) (ha : outs.filterMap audioOf = pcms.map (makeVoiceFrame · seg.streamId))
    (hs : s'.rxStream = some seg.streamId) :
    BracketedBy (log ++ outs) s' calls (some { seg with frames := seg.frames ++ pcms }) :=
  ⟨by simp [hb, h.boundaries], by simp [ha, h.audio, RxSegment.keyed], by simp [hs]⟩

theorem BracketedBy.close (h : BracketedBy log s calls (some seg)) (hb : outs.filterMap boundaryOf = [.stop])
    (ha : outs.filterMap audioOf = [makeUnkeyFrame (some seg.streamId)]) (hs : s'.rxStream = none) :
    BracketedBy (log ++ outs) s' (calls ++ [{ seg with hangUnkey := false }]) none :=
  ⟨by simp [hb, h.boundaries], by simp [ha, h.audio, RxSegment.closed, RxSegment.keyed], by simp [hs]⟩

end

/-- The invariant of a run: bracketed, and a call has just been closed where the hang time runs. -/
def RxInv (log : List Output) (s : PttState) : Prop :=
  ∃ calls last, BracketedBy log s calls last ∧
    ∀ dl, s = .rxHang dl → ∃ pre seg, calls = pre ++ [seg] ∧ seg.hangUnkey = false

theorem BracketedBy.last_none {log : List Output} {s : PttState} {calls : List RxSegment} {last : Option RxSegment}
    (h : BracketedBy log s calls last) (hs : s.rxStream = none) : last = none := by
  have := h.state_open
  rw [hs, Option.map_eq_none_iff] at this
  exact this

theorem BracketedBy.last_some {log : List Output} {call : RxCall} {calls : List RxSegment}
    {last : Option RxSegment} (h : BracketedBy log (.rx call) calls last) :
    ∃ seg, last = some seg ∧ seg.streamId = call.streamId := Option.map_eq_some_iff.mp h.state_open

theorem RxInv.close {log outs : List Output} {call : RxCall} {s' : PttState} (h : RxInv log (.rx call))
    (hb : outs.filterMap boundaryOf = [.stop]) (ha : outs.filterMap audioOf = [makeUnkeyFrame (some call.streamId)])
    (hs : s'.rxStream = none) : RxInv (log ++ outs) s' := by
  obtain ⟨calls, last, hby, -⟩ := h
  obtain ⟨seg, rfl, hseg⟩ := hby.last_some
  rw [← hseg] at ha
  exact ⟨_, none, hby.close hb ha hs, fun _ _ => ⟨calls, _, rfl, rfl⟩⟩

theorem rxInv_voice {P : Params σ φ} {env : Env} {pkt : Dmrd} {log frames : List Output} {s : PttState}
    (h : RxInv log s) (hframes : ∀ o ∈ frames, VoiceOutput pkt.streamId o) :
    RxInv (log ++ (boundaryOutputs P pkt (enterVoice s pkt env.now) ++ frames))
      (.rx (enterVoice s pkt env.now).call) := by
  obtain ⟨pcms, hpcms⟩ := voiceOutputs_audio hframes
  have hb := boundaryOutputs_boundaries P pkt (enterVoice s pkt env.now)
  have ha := boundaryOutputs_audio P pkt (enterVoice s pkt env.now)
  have hvb := voiceOutputs_boundaries hframes
  have fresh (hs : s.rxStream = none) :
      RxInv (log ++ (boundaryOutputs P pkt (enterVoice s pkt env.now) ++ frames))
        (.rx (enterVoice s pkt env.now).call) := by
    obtain ⟨calls, last, hby, -⟩ := h
    obtain rfl := hby.last_none hs
    rw [enterVoice_new (by simp [hs]), hs] at hb ha
    rw [enterVoice_new (by simp [hs]), hs]
    refine ⟨calls, some ⟨pkt.streamId, pcms, false⟩, hby.begin ?_ ?_ rfl, by simp⟩
    · simpa [hvb] using hb
    · simpa [hpcms, RxSegment.keyed] using ha
  cases s with
  | idle | rxHang dl | tx tx => exact fresh rfl
  | rx call =>
    obtain ⟨calls, last, hby, -⟩ := h
    obtain ⟨seg, rfl, hseg⟩ := hby.last_some
    by_cases hsame : call.streamId = pkt.streamId
    · rw [enterVoice_same hsame] at hb ha ⊢
      refine ⟨calls, _, hby.extend pcms ?_ ?_ ?_, by simp⟩
      · simpa [hvb] using hb
      · simpa [hpcms, hseg, hsame] using ha
      · simp [PttState.rxStream, hseg]
    · -- The stream changes: the old call ends and the new one starts in one handler.
      have hnew : (PttState.rx call).rxStream ≠ some pkt.streamId := fun h => hsame (Option.some.inj h)
      have hprior : (PttState.rx call).rxStream = some call.streamId := rfl
      rw [enterVoice_new hnew, hprior] at hb ha ⊢
      refine ⟨calls ++ [{ seg with hangUnkey := false }], some ⟨pkt.streamId, pcms, false⟩, ⟨?_, ?_, rfl⟩, by simp⟩
      · simp at hb
        simp [hb, hvb, hby.boundaries]
      · simp at ha
        simp [ha, hpcms, hby.audio, RxSegment.closed, RxSegment.keyed, hseg]

theorem rxInv_step {P : Params σ φ} {env : Env} {ev : PttEvent} {s s' : PttState} {log outs : List Output}
    (h : RxInv log s) (hev : ∀ c, ev ≠ .control c) (hhdr : ¬ headerInsideCall P.config s ev)
    (hmove : RxMove P env ev s s' outs) : RxInv (log ++ outs) s' := by
  cases hmove with
  | send hs hs' houts =>
    obtain ⟨calls, last, hby, -⟩ := h
    have hnone (t : PttState) (ht : t.rxSide = false) : t.rxStream = none := by cases t <;> first | rfl | cases ht
    obtain rfl := hby.last_none (hnone s hs)
    refine ⟨calls, none, hby.idle (boundaries_of_dir houts) (audio_of_dir houts) (hnone s' hs'), ?_⟩
    rintro dl rfl
    cases hs'
  | quiet => simpa using h
  | header hgw hmatch hs hft hdt hstream =>
    rename_i pkt
    have hnone : s.rxStream = none := by
      cases s with
      | rx call => exact absurd ⟨hgw, hmatch, hft, hdt, call, rfl, fun heq => hstream (congrArg some heq)⟩ hhdr
      | _ => rfl
    obtain ⟨calls, last, hby, -⟩ := h
    obtain rfl := hby.last_none hnone
    obtain ⟨hb, ha⟩ := emitCallMetadata_silent P pkt
    refine ⟨calls, some ⟨pkt.streamId, [], false⟩, hby.begin ?_ ?_ rfl, by simp⟩
    · simp [hb, boundaryOf, rxCallStart]
    · simp [ha, audioOf, rxCallStart, RxSegment.keyed]
  | voice _ _ _ _ hframes => exact rxInv_voice h hframes
  | terminator => exact h.close rfl rfl rfl
  | streamTimeout => exact h.close rfl rfl rfl
  | shutdown => exact h.close rfl rfl rfl
  | hangExpired =>
    obtain ⟨calls, last, hby, -⟩ := h
    obtain rfl := hby.last_none rfl
    exact ⟨calls, none, hby.idle rfl rfl rfl, by simp⟩
  | hangShutdown =>
    rename_i dl
    obtain ⟨calls, last, hby, hcalls⟩ := h
    obtain rfl := hby.last_none rfl
    obtain ⟨pre, seg, rfl, hseg⟩ := hcalls dl rfl
    refine ⟨pre ++ [{ seg with hangUnkey := true }], none, ⟨?_, ?_, rfl⟩, by simp⟩
    · simpa [List.filterMap_cons, boundaryOf] using hby.boundaries
    · simp [hby.audio, audioOf, RxSegment.closed, RxSegment.keyed, hseg]
  | clobber => exact absurd rfl (hev _)

/-! ## Whole runs -/

theorem alternate_calls (calls : List RxSegment) (last : Option RxSegment) :
    (calls.flatMap (fun _ => [Boundary.start, Boundary.stop]) ++
      last.elim [] fun _ => [Boundary.start]).IsChain (· ≠ ·) := by
  induction calls with
  | nil => cases last <;> simp
  | cons c calls ih =>
    rcases calls with _ | ⟨c', calls⟩
    · cases last <;> simp
    · simpa using ih

theorem Bracketed.alternate {log : List Output} {s : PttState} (h : Bracketed log s) :
    (log.filterMap boundaryOf).IsChain (· ≠ ·) := by
  obtain ⟨calls, last, hby⟩ := h
  rw [hby.boundaries]
  exact alternate_calls calls last

theorem headerInsideCall_turn {P : Params σ φ} {m : Machine σ φ} {env : Env} {ev : PttEvent}
    (h : headerInsideCall P.config m.state ev) : (handle P m env ev).2.filterMap boundaryOf = [.start] := by
  cases ev with
  | dmrd pkt =>
    obtain ⟨hgw, hmatch, hft, hdt, call, hstate, hstream⟩ := h
    have hsilent := (emitCallMetadata_silent P pkt).1
    simp [handle, onDmrd, onHeader, hgw, hmatch, hstate, hft, hdt, hstream, PttState.isTx, PttState.rxStream,
      hsilent, boundaryOf, rxCallStart]
  | _ => cases h

theorem not_bracketed_of_header {P : Params σ φ} {m : Machine σ φ} {env : Env} {ev : PttEvent}
    {log rest : List Output} {t : PttState} (hinv : RxInv log m.state) (h : headerInsideCall P.config m.state ev) :
    ¬ Bracketed (log ++ ((handle P m env ev).2 ++ rest)) t := by
  intro hb
  have hchain := hb.alternate
  have hopen : ∃ call, m.state = .rx call := by
    cases ev with
    | dmrd pkt => exact ⟨_, h.2.2.2.2.choose_spec.1⟩
    | _ => cases h
  obtain ⟨call, hstate⟩ := hopen
  rw [hstate] at hinv
  obtain ⟨calls, last, hby, -⟩ := hinv
  obtain ⟨seg, rfl, -⟩ := hby.last_some
  rw [List.filterMap_append, List.filterMap_append, headerInsideCall_turn h, hby.boundaries] at hchain
  simp [List.isChain_append_cons_cons] at hchain

theorem bracketed_step (P : Params σ φ) (m : Machine σ φ) (log : List Output) (evs : List (Env × PttEvent))
    (hinv : RxInv log m.state) (hevs : ∀ e ∈ evs, ∀ c, e.2 ≠ .control c) :
    Bracketed (log ++ (exec (turn P) m evs).2) (exec (turn P) m evs).1.state ↔ NoHeaderInsideCall P m evs := by
  induction evs generalizing m log with
  | nil =>
    obtain ⟨calls, last, hby, -⟩ := hinv
    exact ⟨fun _ => trivial, fun _ => ⟨calls, last, by simpa using hby⟩⟩
  | cons e evs ih =>
    rw [exec]
    by_cases hhdr : headerInsideCall P.config m.state e.2
    · exact ⟨fun h => absurd h (not_bracketed_of_header hinv hhdr), fun h => absurd hhdr h.1⟩
    · have hnext := rxInv_step hinv (hevs e List.mem_cons_self) hhdr (handle_rxMove P m e.1 e.2)
      have hrest := ih (turn P m e).1 _ hnext fun e' he' => hevs e' (List.mem_cons_of_mem e he')
      rw [← List.append_assoc]
      refine hrest.trans ⟨fun h => ⟨hhdr, fun t ht => ?_⟩, fun h => h.2 _ rfl⟩
      cases ht
      exact h

/-- Incoming calls are bracketed in exactly the runs without a header inside another call. -/
theorem bracketed_iff (P : Params σ φ) (vocoder : σ) (filter : Option φ) (evs : List (Env × PttEvent))
    (hevs : ∀ e ∈ evs, ∀ c, e.2 ≠ .control c) :
    Bracketed (exec (turn P) (newMachine vocoder filter) evs).2
        (exec (turn P) (newMachine vocoder filter) evs).1.state ↔
      NoHeaderInsideCall P (newMachine vocoder filter) evs := by
  have h := bracketed_step P (newMachine vocoder filter) [] evs ⟨[], none, ⟨rfl, rfl, rfl⟩, by simp [newMachine]⟩ hevs
  simpa using h

def sampleCall : List (Env × PttEvent) :=
  [(sampleEnv 0 0, .dmrd (samplePacket .voice 0 7)), (sampleEnv 1 0, .dmrd (samplePacket .dataSync 2 7)),
    (sampleEnv 501 0, .timeout)]

theorem bracketed_sampleCall :
    Bracketed (exec (turn sampleParams) (newMachine () none) sampleCall).2
      (exec (turn sampleParams) (newMachine () none) sampleCall).1.state := by
  refine (bracketed_iff sampleParams () none sampleCall (by simp [sampleCall])).mpr ⟨?_, fun t ht => ⟨?_, ?_⟩⟩
  · rintro ⟨-, -, hft, -⟩
    cases hft
  · rintro ⟨-, -, -, hdt, -⟩
    cases hdt
  · exact fun u _ => ⟨fun h => h, fun _ _ => trivial⟩

/-- Voice of stream 7, a header and the terminator of stream 8: nobody unkeys stream 7. -/
def sampleOverlap : List (Env × PttEvent) :=
  [(sampleEnv 0 0, .dmrd (samplePacket .voice 0 7)), (sampleEnv 1 0, .dmrd (samplePacket .dataSync 1 8)),
    (sampleEnv 2 0, .dmrd (samplePacket .dataSync 2 8))]

theorem not_bracketed_sampleOverlap :
    ¬ Bracketed (exec (turn sampleParams) (newMachine () none) sampleOverlap).2
        (exec (turn sampleParams) (newMachine () none) sampleOverlap).1.state ∧
      (exec (turn sampleParams) (newMachine () none) sampleOverlap).2.filterMap boundaryOf = [.start, .start, .stop] ∧
      (exec (turn sampleParams) (newMachine () none) sampleOverlap).2.filterMap audioOf =
        List.replicate 3 (makeVoiceFrame silence 7) ++ [makeUnkeyFrame (some 8)] := by
  have hb : (exec (turn sampleParams) (newMachine () none) sampleOverlap).2.filterMap boundaryOf =
      [.start, .start, .stop] := by rfl
  refine ⟨fun h => ?_, hb, rfl⟩
  have hchain := h.alternate
  rw [hb] at hchain
  simp at hchain

end DmrBridge
