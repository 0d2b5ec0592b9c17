import DmrBridge.CallTally
import DmrBridge.LossAccounting

/-!
# The frame slots of an incoming call

Every packet received makes three frame events, every packet missing one. The two units agree only
in a call without gaps.
-/

open Run

namespace DmrBridge

variable {σ φ : Type}

/-! ## Slots -/

/-- The voice packet that a turn takes, by its number. -/
def takenSeq (P : Params σ φ) (m : Machine σ φ) (e : Env × PttEvent) : List UInt8 :=
  match e.2 with
  | .dmrd pkt =>
    if P.config.gateway ≠ .fmToDmr ∧ matchesConfig pkt P.config = true ∧ m.state.isTx = false ∧
        pkt.frameType ≠ .dataSync
    then [pkt.seq] else []
  | _ => []

/-- Strictly increasing: less than half the numbers ahead of the next one. -/
def Increasing (seqs : List UInt8) : Prop := seqs.IsChain fun a b => b - (a + 1) < 128

/-- The packets from the first to the last number. -/
def spanned : List UInt8 → Nat
  | [] => 0
  | [_] => 1
  | a :: b :: seqs => (b - (a + 1)).toNat + 1 + spanned (b :: seqs)

/-- The gaps that the machine counts. -/
def gapSum : List UInt8 → Nat
  | a :: b :: seqs => (seqGap a b).toNat + gapSum (b :: seqs)
  | _ => 0

theorem gapSum_snoc (seqs : List UInt8) (b : UInt8) :
    gapSum (seqs ++ [b]) = gapSum seqs + (gapAfter seqs.getLast? b).toNat := by
  induction seqs with
  | nil => rfl
  | cons a seqs ih =>
    cases seqs with
    | nil => simp [gapSum, gapAfter]
    | cons c seqs =>
      simp only [List.cons_append, gapSum] at ih ⊢
      rw [ih, List.getLast?_cons_cons, Nat.add_assoc]

theorem seqGap_of_lt {a b : UInt8} (h : b - (a + 1) < 128) : (seqGap a b).toNat = (b - (a + 1)).toNat := by
  unfold seqGap
  dsimp only
  split
  · rfl
  · rename_i hno
    have hzeroGap : ¬ 1 ≤ b - (a + 1) := fun hle => hno ⟨hle, h⟩
    rw [UInt8.le_iff_toNat_le] at hzeroGap
    have hone : (1 : UInt8).toNat = 1 := rfl
    have hzero : (0 : UInt8).toNat = 0 := rfl
    omega

theorem spanned_eq {seqs : List UInt8} (h : Increasing seqs) : spanned seqs = seqs.length + gapSum seqs := by
  induction seqs with
  | nil => rfl
  | cons a seqs ih =>
    cases seqs with
    | nil => rfl
    | cons b seqs =>
      obtain ⟨hab, hrest⟩ := List.isChain_cons_cons.mp h
      rw [spanned, gapSum, ih hrest, seqGap_of_lt hab]
      simp only [List.length_cons]
      omega

theorem gapSum_eq_zero {seqs : List UInt8} (h : Increasing seqs) :
    gapSum seqs = 0 ↔ seqs.IsChain fun a b => b = a + 1 := by
  induction seqs with
  | nil => simp [gapSum]
  | cons a seqs ih =>
    cases seqs with
    | nil => simp [gapSum]
    | cons b seqs =>
      obtain ⟨hab, hrest⟩ := List.isChain_cons_cons.mp h
      rw [gapSum, List.isChain_cons_cons, ← ih hrest, seqGap_of_lt hab, Nat.add_eq_zero_iff, sub_eq_zero_iff,
        eq_comm (a := b)]

/-! ## One voice packet -/

theorem countP_fillGap (P : Params σ φ) (env : Env) (sid : UInt32) (n : Nat) (c : Codec σ φ) (i : Nat) :
    (fillGap P env sid n c i).2.countP (·.isFrame .dmrToFm) = 0 := by
  induction n generalizing c i with
  | zero => rfl
  | succ n ih =>
    have hlost (r : Except VocoderError PcmFrame) : (lostFrameOutputs sid r).countP (·.isFrame .dmrToFm) = 0 := by
      cases r <;> rfl
    rw [fillGap, List.countP_append, hlost, ih]

theorem countP_decodeFrames (P : Params σ φ) (env : Env) (sid : UInt32) (frames : List AmbeFrame) (c : Codec σ φ)
    (i : Nat) : (decodeFrames P env sid frames c i).2.countP (·.isFrame .dmrToFm) = frames.length := by
  induction frames generalizing c i with
  | nil => rfl
  | cons ambe frames ih =>
    have hframe (r : Except VocoderError PcmFrame) :
        (frameOutputs sid (env.calls i).elapsed r).countP (·.isFrame .dmrToFm) = 1 := by
      cases r <;> rfl
    rw [decodeFrames, List.countP_append, hframe, ih, List.length_cons, Nat.add_comm]

/-- Three events for a packet, whether it is decoded, decoded in part or dropped. -/
theorem countP_voiceAudio (P : Params σ φ) (c : Codec σ φ) (env : Env) (pkt : Dmrd) (gap : UInt8) :
    (voiceAudio P c env pkt gap).2.countP (·.isFrame .dmrToFm) = 3 := by
  unfold voiceAudio
  dsimp only
  by_cases hfull : env.audioFull = true
  · rw [if_pos hfull]
    rfl
  · rw [if_neg hfull, List.countP_append, countP_fillGap, countP_decodeFrames, Vector.length_toList]

theorem startsCall_voiceOutput {sid : UInt32} {o : Output} (h : VoiceOutput sid o) : o.startsCall .dmrToFm = false := by
  match o with
  | .audio _ | .stats (.voiceFrame ..) | .stats (.drop _) => rfl
  | .stats (.callStart .dmrToFm ..) | .stats (.callStart .fmToDmr ..) => exact h.elim
  | .stats (.callEnd ..) | .voice .. | .control _ | .metadata _ | .panicked => rfl

theorem quiet_emitCallMetadata (P : Params σ φ) (pkt : Dmrd) :
    ∀ o ∈ emitCallMetadata P pkt, o.startsCall .dmrToFm = false ∧ o.isFrame .dmrToFm = false := by
  apply forall_emitCallMetadata
  intro e
  exact ⟨rfl, rfl⟩

/-! ## One turn -/

/-- Three events for each packet of a call and one for each packet of a gap. -/
structure RxTally (s : PttState) (calls : List (CallTally UInt8)) : Prop where
  frames : ∀ call ∈ calls, call.frames = 3 * call.notes.length + gapSum call.notes
  rx : ∀ rx, s = .rx rx → ∃ prior call, calls = prior ++ [call] ∧ rx.lastSeq = call.notes.getLast?

theorem RxTally.snoc {s : PttState} {calls prior : List (CallTally UInt8)} {call : CallTally UInt8} {rx : RxCall}
    (h : RxTally s calls) (hprior : ∀ c ∈ prior, c ∈ calls)
    (hframes : call.frames = 3 * call.notes.length + gapSum call.notes) (hlast : rx.lastSeq = call.notes.getLast?) :
    RxTally (.rx rx) (prior ++ [call]) where
  frames c hc := by
    rcases List.mem_append.mp hc with hc | hc
    · exact h.frames c (hprior c hc)
    · rw [List.mem_singleton.mp hc]
      exact hframes
  rx rx' hrx := by
    cases hrx
    exact ⟨prior, call, rfl, hlast⟩

theorem rxTally_voice {P : Params σ φ} {m : Machine σ φ} {calls : List (CallTally UInt8)} (env : Env) (pkt : Dmrd)
    (h : RxTally m.state calls) :
    RxTally (onVoice P m env pkt).1.state (tallyTurn .dmrToFm calls ([pkt.seq], (onVoice P m env pkt).2)) := by
  have haudio (c : Codec σ φ) (gap : UInt8) : ∀ o ∈ (voiceAudio P c env pkt gap).2, o.startsCall .dmrToFm = false :=
    fun o ho => startsCall_voiceOutput (voiceOutput_voiceAudio P c env pkt gap o ho)
  -- A stream that is not the one of the call opens a new one.
  have hnew (prior : List Output) (rx : RxCall) (c : Codec σ φ)
      (hprior : ∀ o ∈ prior, o.startsCall .dmrToFm = false ∧ o.isFrame .dmrToFm = false)
      (hlast : rx.lastSeq = some pkt.seq) :
      RxTally (.rx rx) (tallyTurn .dmrToFm calls
        ([pkt.seq], prior ++ rxCallStart pkt :: (emitCallMetadata P pkt ++ (voiceAudio P c env pkt 0).2))) := by
    have hquiet := quiet_emitCallMetadata P pkt
    have hmeta : (emitCallMetadata P pkt).countP (·.isFrame .dmrToFm) = 0 :=
      List.countP_eq_zero.mpr fun o ho => by simp [(hquiet o ho).2]
    rw [tallyTurn_start hprior rfl, List.countP_append, hmeta, countP_voiceAudio]
    · exact h.snoc (fun c hc => hc) (by simp [gapSum]) hlast
    · intro o ho
      rcases List.mem_append.mp ho with ho | ho
      · exact (hquiet o ho).1
      · exact haudio c 0 o ho
  unfold onVoice
  by_cases hstream : m.state.rxStream = some pkt.streamId
  · obtain ⟨rx, hs, hsame⟩ := rxStream_eq_some.mp hstream
    obtain ⟨prior, call, rfl, hlast⟩ := h.rx rx hs
    simp only [hs, enterVoice_same hsame, boundaryOutputs, Bool.false_eq_true, if_false, List.nil_append]
    rw [tallyTurn_open]
    · refine h.snoc (fun c hc => List.mem_append_left _ hc) ?_ (by simp [CallTally.addNotes])
      have hcall := h.frames call (by simp)
      have hgap (n : Nat) : (List.replicate n (Output.stats (.drop .dmrToFm))).countP (·.isFrame .dmrToFm) = n := by
        rw [List.countP_replicate]
        rfl
      have hlastGap : rx.lastSeq.elim 0 (seqGap · pkt.seq) = gapAfter call.notes.getLast? pkt.seq := by
        rw [hlast, gapAfter]
      simp only [CallTally.addFrames, CallTally.addNotes, List.countP_append, hgap, countP_voiceAudio, hcall,
        List.length_append, List.length_singleton, gapSum_snoc, hlastGap]
      omega
    · intro o ho
      rcases List.mem_append.mp ho with ho | ho
      · rw [List.eq_of_mem_replicate ho]
        rfl
      · exact haudio _ _ o ho
  · simp only [enterVoice_new hstream, boundaryOutputs_new, if_true, List.append_assoc, List.cons_append]
    apply hnew
    · cases m.state.rxStream <;> simp [rxCallEnd, Output.startsCall, Output.isFrame]
    · rfl

/-- The call ends or stays as it is, and nothing is counted. -/
theorem RxTally.quiet {s s' : PttState} {calls : List (CallTally UInt8)} {outs : List Output} (h : RxTally s calls)
    (hs' : ∀ rx, s' = .rx rx → s = .rx rx)
    (houts : ∀ o ∈ outs, o.startsCall .dmrToFm = false ∧ o.isFrame .dmrToFm = false) :
    RxTally s' (tallyTurn .dmrToFm calls ([], outs)) := by
  rw [tallyTurn_quiet houts]
  exact ⟨h.frames, fun rx hrx => h.rx rx (hs' rx hrx)⟩

theorem rxTally_other {P : Params σ φ} {env : Env} {ev : PttEvent} {s s' : PttState} {outs : List Output}
    {calls : List (CallTally UInt8)} (h : RxTally s calls) (hmove : RxMove P env ev s s' outs)
    (hev : ∀ pkt, ev = .dmrd pkt → ¬ (P.config.gateway ≠ .fmToDmr ∧ matchesConfig pkt P.config = true ∧
      s.isTx = false ∧ pkt.frameType ≠ .dataSync)) :
    RxTally s' (tallyTurn .dmrToFm calls ([], outs)) := by
  have hend (call : RxCall) (reason : TerminationReason) :
      ∀ o ∈ [.metadata .clear, rxCallEnd reason, .audio (makeUnkeyFrame (some call.streamId))],
        o.startsCall .dmrToFm = false ∧ o.isFrame .dmrToFm = false := by
    simp [rxCallEnd, Output.startsCall, Output.isFrame]
  cases hmove with
  | send _ hs' houts =>
    refine h.quiet (fun rx hrx => ?_) fun o ho => quiet_of_dir (by rw [houts o ho]; decide)
    subst hrx
    cases hs'
  | quiet => exact h.quiet (fun rx hrx => hrx) (by simp)
  | @header pkt =>
    have hquiet := quiet_emitCallMetadata P pkt
    have hresult : RxTally (.rx (newRxCall pkt env.now none)) (calls ++ [⟨[], 0⟩]) := h.snoc (fun c hc => hc) rfl rfl
    have htally : tallyTurn .dmrToFm calls (([] : List UInt8), emitCallMetadata P pkt ++ [rxCallStart pkt]) =
        calls ++ [⟨[], 0⟩] := tallyTurn_start hquiet rfl (by simp) [] calls
    rw [htally]
    exact hresult
  | voice hgw hmatch hs hft => exact absurd ⟨hgw, hmatch, hs, hft⟩ (hev _ rfl)
  | @terminator _ call => exact h.quiet (fun rx hrx => by cases hrx) (hend call .normal)
  | @streamTimeout call => exact h.quiet (fun rx hrx => by cases hrx) (hend call .streamTimeout)
  | @shutdown call => exact h.quiet (fun rx hrx => by cases hrx) (hend call .shutdown)
  | hangExpired => exact h.quiet (fun rx hrx => by cases hrx) (by simp)
  | hangShutdown => exact h.quiet (fun rx hrx => by cases hrx) (by simp [Output.startsCall, Output.isFrame])
  | clobber => exact h.quiet (fun rx hrx => by cases hrx) (by simp)

theorem rxTally_step (P : Params σ φ) (m : Machine σ φ) (calls : List (CallTally UInt8)) (e : Env × PttEvent)
    (h : RxTally m.state calls) :
    RxTally (turn P m e).1.state (tallyTurn .dmrToFm calls (takenSeq P m e, (turn P m e).2)) := by
  obtain ⟨env, ev⟩ := e
  by_cases hev : ∃ pkt, ev = .dmrd pkt ∧ P.config.gateway ≠ .fmToDmr ∧ matchesConfig pkt P.config = true ∧
      m.state.isTx = false ∧ pkt.frameType ≠ .dataSync
  · obtain ⟨pkt, rfl, hgw, hmatch, hs, hft⟩ := hev
    have hturn : turn P m (env, .dmrd pkt) = onVoice P m env pkt := onDmrd_voice env hgw hs ⟨hmatch, rfl, hft⟩
    have htaken : takenSeq P m (env, .dmrd pkt) = [pkt.seq] := if_pos ⟨hgw, hmatch, hs, hft⟩
    rw [hturn, htaken]
    exact rxTally_voice env pkt h
  · have hother (pkt : Dmrd) (hpkt : ev = .dmrd pkt) := fun hvoice => hev ⟨pkt, hpkt, hvoice⟩
    have htaken : takenSeq P m (env, ev) = [] := by
      unfold takenSeq
      split
      · rename_i pkt hpkt
        exact if_neg (hother pkt hpkt)
      · rfl
    rw [htaken]
    exact rxTally_other h (handle_rxMove P m env ev) hother

/-- The calls of any run, with the numbers of their voice packets. -/
theorem frameAccounting_iff (P : Params σ φ) (vocoder : σ) (filter : Option φ) (evs : List (Env × PttEvent))
    (call : CallTally UInt8) (hcall : call ∈ callTallies .dmrToFm P (takenSeq P) (newMachine vocoder filter) evs)
    (hincreasing : Increasing call.notes) :
    call.frames = 3 * spanned call.notes ↔ call.notes.IsChain fun a b => b = a + 1 := by
  have hstart : RxTally (newMachine vocoder filter : Machine σ φ).state [] := by
    refine ⟨fun call hcall => ?_, fun rx hrx => ?_⟩
    · cases hcall
    · cases hrx
  have hinv := callTallies_invariant (fun m calls => RxTally m.state calls) (rxTally_step P) hstart evs
  rw [hinv.frames call hcall, spanned_eq hincreasing, ← gapSum_eq_zero hincreasing]
  omega

/-- A header and the voice packets with these numbers. -/
def voiceCall (seqs : List UInt8) : List (Env × PttEvent) :=
  (sampleEnv 0 0, .dmrd (samplePacket .dataSync dataTypeVoiceHeader 7)) ::
    seqs.map fun seq => (sampleEnv 0 0, .dmrd { samplePacket .voice 1 7 with seq })

theorem frameAccounting_inOrder :
    ∃ call ∈ callTallies .dmrToFm sampleParams (takenSeq sampleParams) (newMachine () none) (voiceCall [254, 255, 0]),
      call.frames = 3 * spanned call.notes := by
  have hcalls : callTallies .dmrToFm sampleParams (takenSeq sampleParams) (newMachine () none)
      (voiceCall [254, 255, 0]) = [⟨[254, 255, 0], 9⟩] := by decide +kernel
  have hmem : ⟨[254, 255, 0], 9⟩ ∈ callTallies .dmrToFm sampleParams (takenSeq sampleParams) (newMachine () none)
      (voiceCall [254, 255, 0]) := by
    rw [hcalls]
    exact List.mem_singleton_self _
  refine ⟨_, hmem, ?_⟩
  exact (frameAccounting_iff sampleParams () none _ _ hmem (by simp +decide [Increasing])).mpr (by simp +decide)

/-- Packet 1 is lost: seven events for nine frame slots. -/
theorem not_frameAccounting_lost :
    ¬ ∀ call ∈ callTallies .dmrToFm sampleParams (takenSeq sampleParams) (newMachine () none) (voiceCall [0, 2]),
      Increasing call.notes → call.frames = 3 * spanned call.notes := by
  have hcalls : callTallies .dmrToFm sampleParams (takenSeq sampleParams) (newMachine () none)
      (voiceCall [0, 2]) = [⟨[0, 2], 7⟩] := by decide +kernel
  intro h
  rw [hcalls] at h
  have hframes := h _ (List.mem_singleton_self _) (by simp +decide [Increasing])
  revert hframes
  decide

end DmrBridge
