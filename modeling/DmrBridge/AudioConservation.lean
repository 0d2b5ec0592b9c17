import DmrBridge.CallTally
import DmrBridge.EncoderLog

/-!
# The audio of an outgoing call

Every frame accepted is encoded once and in order, with silence behind the last of them, and every
frame encoded makes one frame event.
-/

open Run

namespace DmrBridge

variable {σ φ : Type}

/-! ## Notes -/

inductive TxNote where
  | accepted (pcm : PcmFrame)
  | encoded (pcm : PcmFrame)
  /-- A burst was handed to the encoder. -/
  | attempted
  deriving DecidableEq

def TxNote.acceptedFrame : TxNote → Option PcmFrame
  | .accepted pcm => some pcm
  | _ => none

def TxNote.encodedFrame : TxNote → Option PcmFrame
  | .encoded pcm => some pcm
  | _ => none

/-- A frame is accepted in `Idle`, where it opens a call, and in `Tx`. -/
def acceptedNotes (config : VoiceConfig) (s : PttState) (ev : PttEvent) : List TxNote :=
  match s with
  | .idle | .tx _ => (keyedFrame config ev).toList.map .accepted
  | .rx _ | .rxHang _ => []

/-- The buffer that a turn hands to the encoder. -/
def attempt (config : VoiceConfig) (env : Env) (s : PttState) (ev : PttEvent) : Option (List PcmFrame) :=
  match s with
  | .tx tx => attempted config env tx ev
  | _ => none

def txNotes (P : Params (σ × List VocoderCall) φ) (m : Machine (σ × List VocoderCall) φ) (e : Env × PttEvent) :
    List TxNote :=
  acceptedNotes P.config m.state e.2 ++ (encodedBetween m (turn P m e).1).map .encoded ++
    (attempt P.config e.1 m.state e.2).toList.map fun _ => .attempted

def CallTally.accepted (call : CallTally TxNote) : List PcmFrame := call.notes.filterMap TxNote.acceptedFrame
def CallTally.encoded (call : CallTally TxNote) : List PcmFrame := call.notes.filterMap TxNote.encodedFrame
def CallTally.attempts (call : CallTally TxNote) : Nat := call.notes.count .attempted

/-! ## Conservation -/

/-- Filled up with silence to a multiple of three. -/
def padded (frames : List PcmFrame) : List PcmFrame :=
  frames ++ List.replicate ((3 - frames.length % 3) % 3) silence

/-- A call that has ended. -/
structure AudioClosed (call : CallTally TxNote) : Prop where
  audio : call.encoded = padded call.accepted
  frames : call.frames = call.encoded.length

/-- What was accepted is encoded or still in the buffer. -/
structure AudioOpen (tx : TxCall) (call : CallTally TxNote) : Prop where
  audio : call.encoded ++ tx.pcmBuf = call.accepted
  buffered : tx.pcmBuf.length ≤ 2
  whole : call.encoded.length % 3 = 0
  frames : call.frames = call.encoded.length

structure AudioConserved (s : PttState) (calls : List (CallTally TxNote)) : Prop where
  closed : s.isTx = false → ∀ call ∈ calls, AudioClosed call
  tx : ∀ tx, s = .tx tx → ∃ prior call, calls = prior ++ [call] ∧ (∀ c ∈ prior, AudioClosed c) ∧ AudioOpen tx call

/-- The encoder takes every burst of the turn. -/
def NoEncodeFails (P : Params σ φ) (m : Machine σ φ) (e : Env × PttEvent) : Prop :=
  ∀ buf ∈ attempt P.config e.1 m.state e.2, (encodeBurst P m.codec e.1.calls (takeBurst buf)).2 ≠ none

instance (P : Params σ φ) (m : Machine σ φ) (e : Env × PttEvent) : Decidable (NoEncodeFails P m e) :=
  Option.decidableForallMem (attempt P.config e.1 m.state e.2)

/-! ## Events -/

/-- Three events for a burst: it was sent, the queue was full or an encode failed. -/
theorem BurstMove.frames {P : Params σ φ} {env : Env} {c : Codec σ φ} {tx tx' : TxCall} {outs : List Output}
    (h : BurstMove P env c tx tx' outs) :
    (∀ o ∈ outs, o.startsCall .fmToDmr = false) ∧ outs.countP (·.isFrame .fmToDmr) = 3 := by
  cases h with
  | failed => exact ⟨by simp [dropBurst, Output.startsCall], rfl⟩
  | sent =>
    unfold trySendVoiceDmrd
    split
    · exact ⟨by simp [dropBurst, Output.startsCall], rfl⟩
    · exact ⟨by simp [Output.startsCall], rfl⟩

theorem FlushMove.frames {P : Params σ φ} {env : Env} {c : Codec σ φ} {tx tx' : TxCall} {outs : List Output}
    (h : FlushMove P env c tx tx' outs) :
    (∀ o ∈ outs, o.startsCall .fmToDmr = false) ∧
      outs.countP (·.isFrame .fmToDmr) = if tx.pcmBuf.isEmpty then 0 else 3 := by
  cases h with
  | empty hbuf => simp [hbuf]
  | burst hbuf hburst =>
    rw [if_neg (by simpa using hbuf)]
    exact hburst.frames

theorem endTx_frames (P : Params σ φ) (m : Machine σ φ) (env : Env) (tx : TxCall) (reason : TerminationReason) :
    (∀ o ∈ (endTx P m env tx reason).2, o.startsCall .fmToDmr = false) ∧
      (endTx P m env tx reason).2.countP (·.isFrame .fmToDmr) = if tx.pcmBuf.isEmpty then 0 else 3 := by
  obtain ⟨hstarts, hcount⟩ := (flushTx_move P m.codec env tx).frames
  obtain ⟨term, d, -, -, hend⟩ := endTx_spec P m env tx reason
  rw [hend]
  refine ⟨fun o ho => ?_, ?_⟩
  · rcases List.mem_append.mp ho with ho | ho
    · exact hstarts o ho
    · simp only [List.mem_cons, List.not_mem_nil, or_false] at ho
      rcases ho with rfl | rfl <;> rfl
  · rw [List.countP_append, hcount]
    rfl

theorem TxTurn.frames {P : Params σ φ} {env : Env} {c : Codec σ φ} {tx : TxCall} {ev : PttEvent}
    {r : Machine σ φ × List Output} (h : TxTurn P env c tx ev r) :
    (∀ o ∈ r.2, o.startsCall .fmToDmr = false) ∧
      r.2.countP (·.isFrame .fmToDmr) = 3 * (attempted P.config env tx ev).toList.length := by
  cases h with
  | ignored _ hattempt => simp [hattempt]
  | buffered _ _ hattempt => simp [hattempt]
  | burst _ _ hattempt =>
    rw [hattempt]
    exact (sendBurst_move ..).frames
  | @ended _ reason _ hreason =>
    obtain ⟨hstarts, hcount⟩ := endTx_frames P ⟨.tx tx, c⟩ env tx reason
    refine ⟨hstarts, ?_⟩
    rw [hcount, attempted_of_endReason hreason]
    split <;> rfl
  | reset => exact ⟨by simp [Output.startsCall], rfl⟩

/-! ## Frames encoded -/

theorem padded_of_whole {frames : List PcmFrame} (h : frames.length % 3 = 0) : padded frames = frames := by
  simp [padded, h]

theorem takeBurst_toList {buf : List PcmFrame} (hne : buf ≠ []) (hlen : buf.length ≤ 3) :
    (takeBurst buf).toList = padded buf := by
  match buf, hlen with
  | [], _ => exact absurd rfl hne
  | [a], _ => rfl
  | [a, b], _ => rfl
  | [a, b, c], _ =>
    rw [padded_of_whole (by simp)]
    rfl

theorem padded_append {whole : List PcmFrame} (h : whole.length % 3 = 0) (buf : List PcmFrame) :
    padded (whole ++ buf) = whole ++ padded buf := by
  have hlen : (whole ++ buf).length % 3 = buf.length % 3 := by
    rw [List.length_append]
    omega
  rw [padded, padded, hlen, List.append_assoc]

theorem sendBurst_codec (P : Params σ φ) (c : Codec σ φ) (env : Env) (tx : TxCall) :
    (sendBurst P c env tx).1 = (encodeBurst P c env.calls (takeBurst tx.pcmBuf)).1 := by
  unfold sendBurst
  dsimp only
  rcases encodeBurst P c env.calls (takeBurst tx.pcmBuf) with ⟨c', _ | ambe⟩
  · rfl
  · obtain ⟨pkt, hbuild, -⟩ := buildVoiceBurst_spec P.config ambe { tx with pcmBuf := [] }
    simp only [hbuild]

theorem sendBurst_pcmBuf (P : Params σ φ) (c : Codec σ φ) (env : Env) (tx : TxCall) :
    (sendBurst P c env tx).2.1.pcmBuf = [] := by
  have hmove := sendBurst_move P c env tx
  generalize sendBurst P c env tx = r at hmove ⊢
  obtain ⟨c', tx', outs⟩ := r
  cases hmove with
  | failed => rfl
  | sent => rfl

/-- The bursts of a turn are encoded whole. -/
theorem encodes_turn_tx {P : Params σ φ} {env : Env} {c : Codec (σ × List VocoderCall) φ} {tx : TxCall} {ev : PttEvent}
    (hfilter : c.preEncodeFilter = none) (hbuf : tx.pcmBuf.length ≤ 2)
    (hok : NoEncodeFails P.logged ⟨.tx tx, c⟩ (env, ev)) :
    Encodes c (turn P.logged ⟨.tx tx, c⟩ (env, ev)).1.codec (padded ((attempted P.config env tx ev).getD [])) := by
  have hsend (tx' : TxCall) (hattempt : attempted P.config env tx ev = some tx'.pcmBuf) (hne : tx'.pcmBuf ≠ [])
      (hlen : tx'.pcmBuf.length ≤ 3) :
      Encodes c (sendBurst P.logged c env tx').1 (padded ((attempted P.config env tx ev).getD [])) := by
    have hencoded := encodes_encodeBurst hfilter env.calls _ (hok _ hattempt)
    rwa [sendBurst_codec, hattempt, Option.getD_some, ← takeBurst_toList hne hlen]
  have hturn := turn_tx P.logged env c tx ev
  generalize turn P.logged ⟨.tx tx, c⟩ (env, ev) = r at hturn ⊢
  cases hturn with
  | ignored _ hattempt =>
    have hattempt : attempted P.config env tx ev = none := hattempt
    rw [hattempt]
    exact .refl c
  | buffered _ _ hattempt =>
    have hattempt : attempted P.config env tx ev = none := hattempt
    rw [hattempt]
    exact .refl c
  | @burst _ audio _ _ hattempt =>
    have hlen : (tx.pcmBuf ++ [audio]).length ≤ 3 := by
      rw [List.length_append, List.length_singleton]
      omega
    exact hsend { tx with pcmBuf := tx.pcmBuf ++ [audio] } hattempt (by simp) hlen
  | @ended _ reason _ hreason =>
    have hattempt : attempted P.config env tx ev = if tx.pcmBuf.isEmpty then none else some tx.pcmBuf :=
      attempted_of_endReason hreason
    obtain ⟨term, d, -, -, hend⟩ := endTx_spec P.logged ⟨.tx tx, c⟩ env tx reason
    rw [hend]
    show Encodes c (flushTx P.logged c env tx).1 _
    unfold flushTx
    by_cases hempty : tx.pcmBuf.isEmpty = true
    · rw [if_pos hempty, hattempt, if_pos hempty]
      exact .refl c
    · rw [if_neg hempty]
      rw [if_neg hempty] at hattempt
      exact hsend tx hattempt (by simpa using hempty) (by omega)
  | reset =>
    show Encodes c c (padded [])
    exact .refl c

/-! ## One turn in the tallies -/

section
variable (P : Params (σ × List VocoderCall) φ) (c : Codec (σ × List VocoderCall) φ) (tx : TxCall) (e : Env × PttEvent)

/-- The tally of an outgoing call after a turn. -/
def CallTally.afterTurn (call : CallTally TxNote) : CallTally TxNote :=
  (call.addFrames (3 * (attempted P.config e.1 tx e.2).toList.length)).addNotes (txNotes P ⟨.tx tx, c⟩ e)

theorem tallyTurn_tx (prior : List (CallTally TxNote)) (call : CallTally TxNote) :
    tallyTurn .fmToDmr (prior ++ [call]) (txNotes P ⟨.tx tx, c⟩ e, (turn P ⟨.tx tx, c⟩ e).2) =
      prior ++ [call.afterTurn P c tx e] := by
  obtain ⟨hstarts, hcount⟩ := (turn_tx P e.1 c tx e.2).frames
  rw [tallyTurn_open hstarts, hcount]
  rfl

theorem afterTurn_accepted (call : CallTally TxNote) :
    (call.afterTurn P c tx e).accepted = call.accepted ++ (keyedFrame P.config e.2).toList := by
  have hencoded (pcm : List PcmFrame) : (pcm.map TxNote.encoded).filterMap TxNote.acceptedFrame = [] := by
    simp [TxNote.acceptedFrame]
  have hattempts (buf : Option (List PcmFrame)) :
      (buf.toList.map fun _ => TxNote.attempted).filterMap TxNote.acceptedFrame = [] := by
    simp [TxNote.acceptedFrame]
  have haccepted : (acceptedNotes P.config (.tx tx) e.2).filterMap TxNote.acceptedFrame =
      (keyedFrame P.config e.2).toList := by
    unfold acceptedNotes
    cases keyedFrame P.config e.2 <;> rfl
  simp only [CallTally.accepted, CallTally.afterTurn, CallTally.addNotes, CallTally.addFrames, txNotes,
    List.filterMap_append, haccepted, hencoded, hattempts, List.append_nil]

theorem afterTurn_encoded (call : CallTally TxNote) :
    (call.afterTurn P c tx e).encoded = call.encoded ++ encodedBetween ⟨.tx tx, c⟩ (turn P ⟨.tx tx, c⟩ e).1 := by
  have hencoded (pcm : List PcmFrame) : (pcm.map TxNote.encoded).filterMap TxNote.encodedFrame = pcm := by
    induction pcm with
    | nil => rfl
    | cons a pcm ih => simpa [TxNote.encodedFrame] using ih
  have haccepted : (acceptedNotes P.config (.tx tx) e.2).filterMap TxNote.encodedFrame = [] := by
    simp [acceptedNotes, TxNote.encodedFrame]
  have hattempts (buf : Option (List PcmFrame)) :
      (buf.toList.map fun _ => TxNote.attempted).filterMap TxNote.encodedFrame = [] := by
    simp [TxNote.encodedFrame]
  simp only [CallTally.encoded, CallTally.afterTurn, CallTally.addNotes, CallTally.addFrames, txNotes,
    List.filterMap_append, hencoded, haccepted, hattempts, List.append_nil, List.nil_append]

theorem afterTurn_attempts (call : CallTally TxNote) :
    (call.afterTurn P c tx e).attempts = call.attempts + (attempted P.config e.1 tx e.2).toList.length := by
  have hencoded (pcm : List PcmFrame) : (pcm.map TxNote.encoded).count .attempted = 0 :=
    List.count_eq_zero.mpr (by simp)
  have haccepted : (acceptedNotes P.config (.tx tx) e.2).count .attempted = 0 :=
    List.count_eq_zero.mpr (by simp [acceptedNotes])
  have hattempts : ((attempted P.config e.1 tx e.2).toList.map fun _ => TxNote.attempted).count .attempted =
      (attempted P.config e.1 tx e.2).toList.length := by
    cases attempted P.config e.1 tx e.2 <;> rfl
  simp only [CallTally.attempts, CallTally.afterTurn, CallTally.addNotes, CallTally.addFrames, txNotes, attempt,
    List.count_append, haccepted, hencoded, hattempts, Nat.zero_add]

end

theorem tallyTurn_receive (P : Params σ φ) (m : Machine (σ × List VocoderCall) φ) (e : Env × PttEvent)
    (hm : m.state.isTx = false) (calls : List (CallTally TxNote)) :
    ((turn P.logged m e).1.state.isTx = false ∧
        tallyTurn .fmToDmr calls (txNotes P.logged m e, (turn P.logged m e).2) = calls) ∨
      ∃ audio tx, (turn P.logged m e).1.state = .tx tx ∧ tx.pcmBuf = [audio] ∧
        tallyTurn .fmToDmr calls (txNotes P.logged m e, (turn P.logged m e).2) = calls ++ [⟨[.accepted audio], 0⟩] := by
  have hattempts : attempt P.logged.config e.1 m.state e.2 = none := by
    unfold attempt
    split
    · rename_i hs
      rw [hs] at hm
      cases hm
    · rfl
  have hnotes : txNotes P.logged m e = acceptedNotes P.logged.config m.state e.2 := by
    rw [txNotes, (encodes_turn_receive m e hm).between, hattempts]
    simp
  rcases turn_outside P.logged m e hm with ⟨hkeyed, hstate, houts⟩ | ⟨audio, hs, hkeyed, hstart⟩
  · have haccepted : acceptedNotes P.logged.config m.state e.2 = [] := by
      cases hs : m.state with
      | idle => simp [acceptedNotes, hkeyed hs]
      | tx tx =>
        rw [hs] at hm
        cases hm
      | _ => rfl
    refine .inl ⟨hstate, ?_⟩
    rw [hnotes, haccepted]
    exact tallyTurn_quiet (fun o ho => quiet_of_dir (by rw [houts o ho]; decide)) calls
  · obtain ⟨rotation, hpos, hdr, d, -, -, -, hstate, houts⟩ := startTx_spec P.logged m e.1 audio
    have haccepted : acceptedNotes P.logged.config m.state e.2 = [.accepted audio] := by
      simp [acceptedNotes, hs, hkeyed]
    rw [hnotes, haccepted, hstart, houts]
    refine .inr ⟨audio, _, hstate, rfl, ?_⟩
    have hbefore : ∀ o ∈ ([] : List Output), o.startsCall .fmToDmr = false ∧ o.isFrame .fmToDmr = false := by simp
    exact tallyTurn_start hbefore rfl (by simp [Output.startsCall]) _ calls

/-! ## Runs -/

/-- Three events for each burst, with encodes that fail and calls that are reset. -/
structure AttemptTally (s : PttState) (calls : List (CallTally TxNote)) : Prop where
  frames : ∀ call ∈ calls, call.frames = 3 * call.attempts
  tx : s.isTx = true → calls ≠ []

theorem attemptTally_step (P : Params σ φ) (m : Machine (σ × List VocoderCall) φ) (calls : List (CallTally TxNote))
    (e : Env × PttEvent) (h : AttemptTally m.state calls) :
    AttemptTally (turn P.logged m e).1.state
      (tallyTurn .fmToDmr calls (txNotes P.logged m e, (turn P.logged m e).2)) := by
  by_cases hm : m.state.isTx = false
  · rcases tallyTurn_receive P m e hm calls with ⟨hstate, htally⟩ | ⟨audio, tx, hstate, -, htally⟩
    · rw [htally]
      exact ⟨h.frames, fun htx => by rw [hstate] at htx; cases htx⟩
    · rw [htally]
      refine ⟨fun call hcall => ?_, by simp⟩
      rcases List.mem_append.mp hcall with hcall | hcall
      · exact h.frames call hcall
      · rw [List.mem_singleton.mp hcall]
        rfl
  · obtain ⟨s, c⟩ := m
    cases s with
    | tx tx =>
      obtain ⟨prior, call, rfl⟩ := List.eq_nil_or_concat' calls |>.resolve_left (h.tx rfl)
      rw [tallyTurn_tx]
      refine ⟨fun call' hcall' => ?_, by simp⟩
      rcases List.mem_append.mp hcall' with hcall' | hcall'
      · exact h.frames call' (List.mem_append_left _ hcall')
      · have hcall := h.frames call (by simp)
        have hframes : (call.afterTurn P.logged c tx e).frames =
            call.frames + 3 * (attempted P.logged.config e.1 tx e.2).toList.length := rfl
        rw [List.mem_singleton.mp hcall', hframes, afterTurn_attempts]
        omega
    | _ => exact absurd rfl hm

theorem length_padded {buf : List PcmFrame} (hne : buf ≠ []) (hlen : buf.length ≤ 3) : (padded buf).length = 3 := by
  rw [← takeBurst_toList hne hlen, Vector.length_toList]

/-- The frames `keyed` come in and the whole bursts `pcm` go out. -/
theorem AudioOpen.pass {tx tx' : TxCall} {call call' : CallTally TxNote} (h : AudioOpen tx call)
    (keyed pcm : List PcmFrame) (hpass : pcm ++ tx'.pcmBuf = tx.pcmBuf ++ keyed) (hwhole : pcm.length % 3 = 0)
    (hlen : tx'.pcmBuf.length ≤ 2) (haccepted : call'.accepted = call.accepted ++ keyed)
    (hencoded : call'.encoded = call.encoded ++ pcm) (hframes : call'.frames = call.frames + pcm.length) :
    AudioOpen tx' call' where
  audio := by rw [hencoded, haccepted, ← h.audio, List.append_assoc, hpass, List.append_assoc]
  buffered := hlen
  whole := by
    have := h.whole
    rw [hencoded, List.length_append]
    omega
  frames := by rw [hframes, hencoded, List.length_append, h.frames]

/-- The buffer goes out with its padding. -/
theorem AudioOpen.close {tx : TxCall} {call call' : CallTally TxNote} (h : AudioOpen tx call)
    (haccepted : call'.accepted = call.accepted) (hencoded : call'.encoded = call.encoded ++ padded tx.pcmBuf)
    (hframes : call'.frames = call.frames + (padded tx.pcmBuf).length) : AudioClosed call' where
  audio := by rw [hencoded, haccepted, ← h.audio, padded_append h.whole]
  frames := by rw [hframes, hencoded, List.length_append, h.frames]

/-- What a turn accepts is encoded or in the buffer after it. -/
theorem AudioOpen.turn {P : Params σ φ} {env : Env} {c : Codec σ φ} {tx : TxCall} {ev : PttEvent}
    {r : Machine σ φ × List Output} {call call' : CallTally TxNote} (h : AudioOpen tx call)
    (hturn : TxTurn P env c tx ev r) (hcontrol : ∀ x, ev ≠ .control x)
    (haccepted : call'.accepted = call.accepted ++ (keyedFrame P.config ev).toList)
    (hencoded : call'.encoded = call.encoded ++ padded ((attempted P.config env tx ev).getD []))
    (hframes : call'.frames = call.frames + 3 * (attempted P.config env tx ev).toList.length) :
    (r.1.state.isTx = false ∧ AudioClosed call') ∨ ∃ tx', r.1.state = .tx tx' ∧ AudioOpen tx' call' := by
  have hbuf := h.buffered
  cases hturn with
  | ignored hkeyed hattempt =>
    rw [hkeyed] at haccepted
    rw [hattempt] at hencoded hframes
    exact .inr ⟨tx, rfl, h.pass [] [] (List.append_nil _).symm rfl hbuf haccepted hencoded hframes⟩
  | @buffered _ audio hkeyed hlen hattempt =>
    rw [hkeyed] at haccepted
    rw [hattempt] at hencoded hframes
    refine .inr ⟨_, rfl, h.pass [audio] [] rfl rfl ?_ haccepted hencoded hframes⟩
    rw [List.length_append]
    exact hlen
  | @burst _ audio hkeyed hlen hattempt =>
    have hthree : (tx.pcmBuf ++ [audio]).length = 3 := by
      simp only [List.length_append, List.length_singleton]
      omega
    rw [hkeyed] at haccepted
    rw [hattempt, Option.getD_some, padded_of_whole (by omega)] at hencoded
    rw [hattempt, Option.toList_some, List.length_singleton, Nat.mul_one, ← hthree] at hframes
    refine .inr ⟨_, rfl, h.pass [audio] (tx.pcmBuf ++ [audio]) ?_ (by omega) ?_ haccepted hencoded hframes⟩
    · rw [sendBurst_pcmBuf, List.append_nil]
    · rw [sendBurst_pcmBuf]
      exact Nat.zero_le _
  | @ended _ reason hkeyed hreason =>
    obtain ⟨term, d, -, -, hend⟩ := endTx_spec P ⟨.tx tx, c⟩ env tx reason
    refine .inl ⟨by rw [hend]; rfl, ?_⟩
    rw [hkeyed, Option.toList_none, List.append_nil] at haccepted
    rw [attempted_of_endReason hreason] at hencoded hframes
    by_cases hempty : tx.pcmBuf = []
    · simp only [hempty, List.isEmpty_nil, if_true] at hencoded hframes
      exact h.close haccepted (by rw [hempty]; exact hencoded) (by rw [hempty]; exact hframes)
    · rw [if_neg (by simpa using hempty)] at hencoded hframes
      rw [Option.toList_some, List.length_singleton, Nat.mul_one, ← length_padded hempty (by omega)] at hframes
      exact h.close haccepted hencoded hframes
  | reset => exact absurd rfl (hcontrol _)

theorem audioConserved_step (P : Params σ φ) (m : Machine (σ × List VocoderCall) φ) (calls : List (CallTally TxNote))
    (e : Env × PttEvent) (h : m.codec.preEncodeFilter = none ∧ AudioConserved m.state calls)
    (hok : (∀ x, e.2 ≠ .control x) ∧ NoEncodeFails P.logged m e) :
    (turn P.logged m e).1.codec.preEncodeFilter = none ∧
      AudioConserved (turn P.logged m e).1.state
        (tallyTurn .fmToDmr calls (txNotes P.logged m e, (turn P.logged m e).2)) := by
  obtain ⟨hfilter, hcalls⟩ := h
  obtain ⟨hcontrol, hnofail⟩ := hok
  by_cases hm : m.state.isTx = false
  · refine ⟨(encodes_turn_receive m e hm).filter hfilter, ?_⟩
    rcases tallyTurn_receive P m e hm calls with ⟨hstate, htally⟩ | ⟨audio, tx, hstate, hbuf, htally⟩
    · rw [htally]
      refine ⟨fun _ => hcalls.closed hm, fun tx htx => ?_⟩
      rw [htx] at hstate
      cases hstate
    · rw [htally, hstate]
      refine ⟨fun hend => ?_, fun tx' htx' => ?_⟩
      · cases hend
      · cases htx'
        exact ⟨calls, _, rfl, hcalls.closed hm, by rw [hbuf]; rfl, by rw [hbuf]; simp, rfl, rfl⟩
  · obtain ⟨s, c⟩ := m
    cases s with
    | tx tx =>
      obtain ⟨env, ev⟩ := e
      obtain ⟨prior, call, rfl, hprior, hopen⟩ := hcalls.tx tx rfl
      have hturn := turn_tx P.logged env c tx ev
      have hencodes := encodes_turn_tx hfilter hopen.buffered hnofail
      refine ⟨hencodes.filter hfilter, ?_⟩
      have hencoded := afterTurn_encoded P.logged c tx (env, ev) call
      rw [hencodes.between] at hencoded
      rw [tallyTurn_tx]
      have haccepted := afterTurn_accepted P.logged c tx (env, ev) call
      rcases hopen.turn hturn hcontrol haccepted hencoded rfl with ⟨hstate, hclosed⟩ | ⟨tx', hstate, hopen'⟩
      · refine ⟨fun _ call' hcall' => ?_, fun tx' htx' => ?_⟩
        · rcases List.mem_append.mp hcall' with hcall' | hcall'
          · exact hprior call' hcall'
          · rw [List.mem_singleton.mp hcall']
            exact hclosed
        · rw [htx'] at hstate
          cases hstate
      · refine ⟨fun hend => ?_, fun tx'' htx'' => ?_⟩
        · rw [hstate] at hend
          cases hend
        · rw [hstate] at htx''
          cases htx''
          exact ⟨prior, _, rfl, hprior, hopen'⟩
    | _ => exact absurd rfl hm

/-- The calls of any run, with what they accepted and what the encoder was given. -/
theorem audio_conserved (P : Params σ φ) (vocoder : σ) (filter : Option φ) (evs : List (Env × PttEvent)) :
    (∀ call ∈ callTallies .fmToDmr P.logged (txNotes P.logged) (newMachine (vocoder, []) filter) evs,
        call.frames = 3 * call.attempts) ∧
      (filter = none → (∀ e ∈ evs, ∀ x, e.2 ≠ .control x) →
        Along (turnState P.logged) (NoEncodeFails P.logged) (newMachine (vocoder, []) filter) evs →
        AudioConserved (exec (turn P.logged) (newMachine (vocoder, []) filter) evs).1.state
          (callTallies .fmToDmr P.logged (txNotes P.logged) (newMachine (vocoder, []) filter) evs)) := by
  constructor
  · have hstart : AttemptTally (newMachine (vocoder, []) filter : Machine (σ × List VocoderCall) φ).state [] := by
      refine ⟨fun call hcall => ?_, fun htx => ?_⟩
      · cases hcall
      · cases htx
    exact (callTallies_invariant (fun m calls => AttemptTally m.state calls) (attemptTally_step P) hstart evs).frames
  · rintro rfl hcontrol hnofail
    have hstart : AudioConserved (newMachine (vocoder, []) none : Machine (σ × List VocoderCall) φ).state [] := by
      refine ⟨fun _ call hcall => ?_, fun tx htx => ?_⟩
      · cases hcall
      · cases htx
    have hok := along_and (along_of_mem hcontrol (newMachine (vocoder, []) none)) hnofail
    exact (callTallies_invariant_along
      (fun m calls => m.codec.preEncodeFilter = none ∧ AudioConserved m.state calls) (audioConserved_step P)
      ⟨rfl, hstart⟩ hok).2

/-- Four keyed frames, each of its own level, and the unkey. -/
def fourFrames : List (Env × PttEvent) :=
  ([1, 2, 3, 4].map fun level => (sampleEnv 0 5, .audio (makeVoiceFrame (.replicate 160 level) 0))) ++
    [(sampleEnv 0 5, .audio (makeUnkeyFrame none))]

/-- The levels of the frames: the second burst is filled up with two frames of silence. -/
theorem audio_conserved_fourFrames :
    (callTallies .fmToDmr sampleParams.logged (txNotes sampleParams.logged) (newMachine ((), []) none) fourFrames).map
        (fun call => (call.accepted.map (·[0]), call.encoded.map (·[0]))) = [([1, 2, 3, 4], [1, 2, 3, 4, 0, 0])] ∧
    AudioConserved (exec (turn sampleParams.logged) (newMachine ((), []) none) fourFrames).1.state
      (callTallies .fmToDmr sampleParams.logged (txNotes sampleParams.logged) (newMachine ((), []) none) fourFrames) :=
  ⟨by decide +kernel,
    (audio_conserved sampleParams () none fourFrames).2 rfl (by simp [fourFrames]) (by decide +kernel)⟩

end DmrBridge
