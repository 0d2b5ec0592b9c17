import DmrBridge.AmbeServer
import DmrBridge.Tx

/-!
# What reaches the encoder

The machine over a vocoder with a log. Only a burst of an outgoing call adds encodes to it: the
three frames of the burst, unless an encode fails.
-/

namespace DmrBridge

variable {σ φ : Type}

def Params.logged (P : Params σ φ) : Params (σ × List VocoderCall) φ :=
  { config := P.config, vocoder := P.vocoder.logged, filter := P.filter, callsignLookup := P.callsignLookup }

def encodeInput : VocoderCall → Option PcmFrame
  | .encode pcm => some pcm
  | .decode _ => none

/-- From `c` to `c'` the frames `pcm` were encoded, and no filter was put in. -/
structure Encodes (c c' : Codec (σ × List VocoderCall) φ) (pcm : List PcmFrame) : Prop where
  calls : ∃ calls, c'.vocoder.2 = c.vocoder.2 ++ calls ∧ calls.filterMap encodeInput = pcm
  filter : c.preEncodeFilter = none → c'.preEncodeFilter = none

/-- The frames encoded between two states of the machine. -/
def encodedBetween (m m' : Machine (σ × List VocoderCall) φ) : List PcmFrame :=
  (m'.codec.vocoder.2.drop m.codec.vocoder.2.length).filterMap encodeInput

section
variable {c c' c'' : Codec (σ × List VocoderCall) φ} {pcm pcm' : List PcmFrame}

theorem Encodes.of_eq (h : c'.vocoder.2 = c.vocoder.2) (hfilter : c'.preEncodeFilter = c.preEncodeFilter) :
    Encodes c c' [] where
  calls := ⟨[], by simp [h], rfl⟩
  filter hnone := hfilter.trans hnone

theorem Encodes.refl (c : Codec (σ × List VocoderCall) φ) : Encodes c c [] := .of_eq rfl rfl

theorem Encodes.trans (h : Encodes c c' pcm) (h' : Encodes c' c'' pcm') : Encodes c c'' (pcm ++ pcm') where
  calls := by
    obtain ⟨calls, hcalls, rfl⟩ := h.calls
    obtain ⟨calls', hcalls', rfl⟩ := h'.calls
    exact ⟨calls ++ calls', by rw [hcalls', hcalls, List.append_assoc], List.filterMap_append⟩
  filter hnone := h'.filter (h.filter hnone)

theorem Encodes.between {m m' : Machine (σ × List VocoderCall) φ} (h : Encodes m.codec m'.codec pcm) :
    encodedBetween m m' = pcm := by
  obtain ⟨calls, hcalls, rfl⟩ := h.calls
  rw [encodedBetween, hcalls, List.drop_left]

/-! ## One call of the vocoder -/

/-- The call is made, or its error is reported without it. -/
theorem guarded_vocoder {α : Type} (c : Codec σ φ) (e : CallEnv) (cancelled panicked : VocoderError)
    (call : σ → σ × Except VocoderError α) :
    (guarded c e cancelled panicked call).1.vocoder = (call c.vocoder).1 ∨
      (guarded c e cancelled panicked call).1.vocoder = c.vocoder ∧
        ∃ err, (guarded c e cancelled panicked call).2 = .error err := by
  unfold guarded
  dsimp only
  split
  · exact .inr ⟨rfl, cancelled, rfl⟩
  split
  · exact .inr ⟨rfl, panicked, rfl⟩
  · exact .inl rfl

theorem guarded_filter {α : Type} (c : Codec σ φ) (e : CallEnv) (cancelled panicked : VocoderError)
    (call : σ → σ × Except VocoderError α) :
    (guarded c e cancelled panicked call).1.preEncodeFilter = c.preEncodeFilter := by
  unfold guarded
  dsimp only
  split
  · rfl
  split
  · rfl
  · rfl

variable {P : Params σ φ}

theorem encodes_decode (c : Codec (σ × List VocoderCall) φ) (e : CallEnv) (ambe : Option AmbeFrame) :
    Encodes c (decode P.logged c e ambe).1 [] := by
  have hfilter := guarded_filter c e (.decode "cancelled") (.decode "vocoder panic") fun v =>
    P.logged.vocoder.decode v ambe
  rcases guarded_vocoder c e (.decode "cancelled") (.decode "vocoder panic") fun v =>
      P.logged.vocoder.decode v ambe with
    h | ⟨h, -⟩
  · refine ⟨⟨[.decode ambe], ?_, rfl⟩, hfilter.trans⟩
    rw [decode, h]
    rfl
  · refine .of_eq ?_ hfilter
    rw [decode, h]

/-- Without the filter the frame that is encoded is the frame that was passed. -/
theorem encodes_encode {c : Codec (σ × List VocoderCall) φ} (hfilter : c.preEncodeFilter = none) {e : CallEnv}
    {pcm : PcmFrame} {ambe : AmbeFrame} (hok : (encode P.logged c e pcm).2 = .ok ambe) :
    Encodes c (encode P.logged c e pcm).1 [pcm] := by
  have hself : { c with preEncodeFilter := none } = c := by rw [← hfilter]
  have hcall : encode P.logged c e pcm = guarded c e (.encode "cancelled") (.encode "vocoder panic") fun v =>
      P.logged.vocoder.encode v pcm := by
    simp only [encode, hfilter, hself]
  rw [hcall] at hok ⊢
  rcases guarded_vocoder c e (.encode "cancelled") (.encode "vocoder panic") fun v => P.logged.vocoder.encode v pcm with
    h | ⟨-, err, herr⟩
  · refine ⟨⟨[.encode pcm], ?_, rfl⟩, (guarded_filter ..).trans⟩
    rw [h]
    rfl
  · rw [hok] at herr
    cases herr

theorem encodes_encodeBurst {c : Codec (σ × List VocoderCall) φ} (hfilter : c.preEncodeFilter = none)
    (calls : Nat → CallEnv) (pcm : Vector PcmFrame 3) (hok : (encodeBurst P.logged c calls pcm).2 ≠ none) :
    Encodes c (encodeBurst P.logged c calls pcm).1 pcm.toList := by
  have hpcm : pcm.toList = [pcm.get 0] ++ [pcm.get 1] ++ [pcm.get 2] := by
    apply List.ext_getElem (by simp)
    intro i hi _
    have hi3 : i < 3 := by simpa using hi
    rcases (by omega : i = 0 ∨ i = 1 ∨ i = 2) with rfl | rfl | rfl <;> rfl
  unfold encodeBurst at hok ⊢
  rcases he0 : encode P.logged c (calls 0) (pcm.get 0) with ⟨c0, _ | a0⟩
  · simp [he0] at hok
  have h0 := encodes_encode hfilter (congrArg Prod.snd he0)
  rw [he0] at h0
  rcases he1 : encode P.logged c0 (calls 1) (pcm.get 1) with ⟨c1, _ | a1⟩
  · simp [he0, he1] at hok
  have h1 := encodes_encode (h0.filter hfilter) (congrArg Prod.snd he1)
  rw [he1] at h1
  rcases he2 : encode P.logged c1 (calls 2) (pcm.get 2) with ⟨c2, _ | a2⟩
  · simp [he0, he1, he2] at hok
  have h2 := encodes_encode (h1.filter (h0.filter hfilter)) (congrArg Prod.snd he2)
  rw [he2] at h2
  simp only [he1, he2, hpcm]
  exact (h0.trans h1).trans h2

/-! ## The receive side -/

theorem encodes_onPttUp (c : Codec (σ × List VocoderCall) φ) : Encodes c (onPttUp P.logged c) [] := by
  unfold onPttUp
  split
  · exact .of_eq rfl rfl
  · exact .of_eq rfl rfl

theorem encodes_warmDecoderCache (c : Codec (σ × List VocoderCall) φ) : Encodes c (warmDecoderCache P.logged c) [] := by
  unfold warmDecoderCache
  split
  · exact .of_eq rfl rfl
  · exact .of_eq rfl rfl

theorem encodes_newCall (c : Codec (σ × List VocoderCall) φ) :
    Encodes c (warmDecoderCache P.logged (onPttUp P.logged c)) [] :=
  (encodes_onPttUp c).trans (encodes_warmDecoderCache _)

theorem encodes_fillGap (env : Env) (sid : UInt32) (n : Nat) (c : Codec (σ × List VocoderCall) φ) (i : Nat) :
    Encodes c (fillGap P.logged env sid n c i).1 [] := by
  induction n generalizing c i with
  | zero => exact .refl c
  | succ n ih => exact (encodes_decode c (env.calls i) none).trans (ih _ _)

theorem encodes_decodeFrames (env : Env) (sid : UInt32) (frames : List AmbeFrame)
    (c : Codec (σ × List VocoderCall) φ) (i : Nat) : Encodes c (decodeFrames P.logged env sid frames c i).1 [] := by
  induction frames generalizing c i with
  | nil => exact .refl c
  | cons ambe frames ih => exact (encodes_decode c (env.calls i) (some ambe)).trans (ih _ _)

theorem encodes_voiceAudio (c : Codec (σ × List VocoderCall) φ) (env : Env) (pkt : Dmrd) (gap : UInt8) :
    Encodes c (voiceAudio P.logged c env pkt gap).1 [] := by
  have hreset : Encodes c (if gap > gapBoundaryPackets then onPttUp P.logged c else c) [] := by
    split
    · exact encodes_onPttUp c
    · exact .refl c
  unfold voiceAudio
  dsimp only
  by_cases hfull : env.audioFull = true
  · rw [if_pos hfull]
    exact hreset
  · rw [if_neg hfull]
    exact (hreset.trans (encodes_fillGap ..)).trans (encodes_decodeFrames ..)

theorem encodes_onDmrd (m : Machine (σ × List VocoderCall) φ) (env : Env) (pkt : Dmrd) :
    Encodes m.codec (onDmrd P.logged m env pkt).1.codec [] := by
  unfold onDmrd
  split
  · exact .refl _
  split
  · exact .refl _
  split
  · exact .refl _
  split
  · split
    · unfold onHeader
      split
      · exact .refl _
      · exact encodes_newCall m.codec
    split
    · unfold onTerminator
      split <;> exact .refl _
    · exact .refl _
  all_goals
    unfold onVoice
    dsimp only
    split
    · exact (encodes_newCall m.codec).trans (encodes_voiceAudio ..)
    · exact encodes_voiceAudio ..

theorem encodes_startTx (m : Machine (σ × List VocoderCall) φ) (env : Env) (audio : PcmFrame) :
    Encodes m.codec (startTx P.logged m env audio).1.codec [] := by
  have hreset (c : Codec (σ × List VocoderCall) φ) :
      Encodes c { c with preEncodeFilter := c.preEncodeFilter.map P.logged.filter.reset } [] :=
    ⟨⟨[], by simp, rfl⟩, fun hnone => by simp [hnone]⟩
  have hstart := (encodes_onPttUp (P := P) m.codec).trans (hreset _)
  unfold startTx
  split
  · exact .refl _
  split
  · dsimp only
    split <;> exact hstart
  · exact .refl _

/-- A turn outside an outgoing call. It may start one. -/
theorem encodes_turn_receive (m : Machine (σ × List VocoderCall) φ) (e : Env × PttEvent) (hm : m.state.isTx = false) :
    Encodes m.codec (turn P.logged m e).1.codec [] := by
  obtain ⟨env, ev⟩ := e
  obtain ⟨s, c⟩ := m
  cases ev with
  | dmrd pkt => exact encodes_onDmrd _ env pkt
  | control event =>
    cases event
    cases s <;> exact .refl _
  | timeout =>
    cases s with
    | tx tx => cases hm
    | _ => exact .refl _
  | shutdown =>
    cases s with
    | tx tx => cases hm
    | _ => exact .refl _
  | audio frame =>
    show Encodes c (onAudio P.logged ⟨s, c⟩ env frame).1.codec []
    unfold onAudio
    split
    · exact .refl _
    split
    · cases s with
      | tx tx => cases hm
      | _ => exact .refl _
    cases frame.samples with
    | none => exact .refl _
    | some audio =>
      cases s with
      | tx tx => cases hm
      | idle => exact encodes_startTx ⟨.idle, c⟩ env audio
      | _ => exact .refl _

end

end DmrBridge
