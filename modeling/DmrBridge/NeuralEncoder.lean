import DmrBridge.Lib.Recent
import DmrBridge.NeuralDecoder

/-!
# The neural encoder

`NeuralVocoder` keeps the last `buffer_cap` samples and gives the model the oldest of them. The model
and its arithmetic are a parameter: `F` stands for `f32`.
-/

open Recent Run

namespace DmrBridge

/-- `layout` and `context_frames` are only logged. -/
structure NeuralMeta where
  pcmInputSamples : Nat
  contextLookahead : Nat
  harnessLookbackSamples : Nat
  deriving DecidableEq

/-- `div_ceil` -/
def divCeil (a b : Nat) : Nat := (a + b - 1) / b

/-- In `usize`; without overflow that is `Nat`. -/
def deriveBufferCap (info : NeuralMeta) : Nat :=
  let sliceEndOffset := info.pcmInputSamples - info.contextLookahead * 160 - info.harnessLookbackSamples
  let kWarmup := divCeil sliceEndOffset 160
  (kWarmup + info.contextLookahead) * 160 + info.harnessLookbackSamples

theorem le_divCeil_mul (a : Nat) {b : Nat} (h : 0 < b) : a ≤ divCeil a b * b := by
  have hdiv := Nat.div_add_mod (a + b - 1) b
  have hmod := Nat.mod_lt (a + b - 1) h
  unfold divCeil
  rw [Nat.mul_comm]
  omega

/-- The saturating subtractions only make the offset larger. -/
theorem pcmInputSamples_le_cap (info : NeuralMeta) : info.pcmInputSamples ≤ deriveBufferCap info := by
  have hceil := le_divCeil_mul (info.pcmInputSamples - info.contextLookahead * 160 - info.harnessLookbackSamples)
    (b := 160) (by decide)
  unfold deriveBufferCap
  simp only
  rw [Nat.add_mul]
  omega

structure EncoderModel (F : Type) where
  /-- One array of logits for each field. -/
  run : List F → Option VqIndices → Except String (Vector (Except String (List F)) 9)
  /-- `f32::from(sample) / 32768.0` -/
  ofSample : Int16 → F
  zero : F
  negInf : F
  gt : F → F → Bool
  applyDb : Db → PcmFrame → PcmFrame

structure NeuralVocoder (F δ : Type) where
  info : NeuralMeta
  bufferCap : Nat
  samples : List Int16
  inputScratch : Vector F info.pcmInputSamples
  decoder : δ
  inDb : Db
  requiresPrevIndices : Bool
  prevIndices : VqIndices
  cap_eq : bufferCap = deriveBufferCap info

namespace NeuralVocoder

variable {F δ : Type}

/-- `open`, with the model loaded -/
def new (M : EncoderModel F) (V : Vocoder δ) (info : NeuralMeta) (requiresPrevIndices : Bool) (decoder : δ) :
    NeuralVocoder F δ where
  info
  bufferCap := deriveBufferCap info
  samples := []
  inputScratch := .replicate _ M.zero
  decoder := V.warmCache decoder
  inDb := 0
  requiresPrevIndices
  prevIndices := .replicate 9 0
  cap_eq := rfl

/-- The scratch zipped with the samples: where there is no sample the old value stays. -/
def fillScratch (M : EncoderModel F) (s : NeuralVocoder F δ) : Vector F s.info.pcmInputSamples :=
  .ofFn fun i => match s.samples[i.val]? with
    | some sample => M.ofSample sample
    | none => s.inputScratch.get i

/-- The first of the greatest. -/
def argmax (M : EncoderModel F) (logits : List F) : Nat :=
  (logits.zipIdx.foldl (fun best p => if M.gt p.1 best.2 then (p.2, p.1) else best) (0, M.negInf)).1

def readField (M : EncoderModel F) (outputs : Vector (Except String (List F)) 9) (j : Fin 9) :
    Except VocoderError Nat :=
  let field := fieldsDmr3600x2450.get j
  match outputs.get j with
  | .error e => .error (.encode (field.name ++ ": " ++ e))
  | .ok logits =>
    if logits.length ≠ field.vqSize then
      .error
        (.encode (field.name ++ ": logits len " ++ toString logits.length ++ " != vq_size " ++ toString field.vqSize))
    else .ok (argmax M logits)

def readOutputs (M : EncoderModel F) :
    Except String (Vector (Except String (List F)) 9) → Except VocoderError VqIndices
  | .error e => .error (.encode ("inference: " ++ e))
  | .ok outputs =>
    (List.finRange 9).foldlM (fun vq j => do return setAt vq j (← readField M outputs j)) (.replicate 9 0)

def prior (s : NeuralVocoder F δ) : Option VqIndices := if s.requiresPrevIndices then some s.prevIndices else none

def runInference (M : EncoderModel F) (s : NeuralVocoder F δ) : NeuralVocoder F δ × Except VocoderError VqIndices :=
  let input := fillScratch M s
  let s := { s with inputScratch := input }
  match readOutputs M (M.run input.toList s.prior) with
  | .error e => (s, .error e)
  | .ok vq => (if s.requiresPrevIndices then { s with prevIndices := vq } else s, .ok vq)

def encodeRealFrame (M : EncoderModel F) (s : NeuralVocoder F δ) : NeuralVocoder F δ × Except VocoderError AmbeFrame :=
  let (s, result) := runInference M s
  (s, result.map encodeVqFrame)

def accept (s : NeuralVocoder F δ) (pcm : PcmFrame) : NeuralVocoder F δ :=
  { s with samples := trim s.bufferCap (s.samples ++ pcm.toList) }

def encode (M : EncoderModel F) (s : NeuralVocoder F δ) (pcm : PcmFrame) :
    NeuralVocoder F δ × Except VocoderError AmbeFrame :=
  let s := s.accept (M.applyDb s.inDb pcm)
  if s.samples.length < s.bufferCap then (s, .ok silenceFrame) else encodeRealFrame M s

def reset (V : Vocoder δ) (s : NeuralVocoder F δ) : NeuralVocoder F δ :=
  { s with decoder := V.reset s.decoder, samples := .replicate s.bufferCap 0, prevIndices := .replicate 9 0 }

def vocoder (M : EncoderModel F) (V : Vocoder δ) : Vocoder (NeuralVocoder F δ) where
  encode := encode M
  decode s ambe :=
    let (decoder, result) := V.decode s.decoder ambe
    ({ s with decoder }, result)
  reset := reset V
  warmCache s := { s with decoder := V.warmCache s.decoder }
  setGain s inDb outDb :=
    let (decoder, result) := V.setGain s.decoder 0 outDb
    ({ s with inDb, decoder }, result)

/-! ## What a call does -/

inductive Call where
  | encode (pcm : PcmFrame)
  | decode (ambe : Option AmbeFrame)
  | reset
  | warmCache
  | setGain (inDb outDb : Db)

/-- The vocoder and the stream it was given, after the gain: since it was made, or the zeros of the
last reset and what came after them. -/
structure Progress (F δ : Type) where
  vocoder : NeuralVocoder F δ
  stream : List Int16

def step (M : EncoderModel F) (V : Vocoder δ) (p : Progress F δ) : Call → Option (Progress F δ)
  | .encode pcm => some
    { vocoder := (encode M p.vocoder pcm).1, stream := p.stream ++ (M.applyDb p.vocoder.inDb pcm).toList }
  | .decode ambe => some { p with vocoder := ((vocoder M V).decode p.vocoder ambe).1 }
  | .reset => some { vocoder := reset V p.vocoder, stream := .replicate p.vocoder.bufferCap 0 }
  | .warmCache => some { p with vocoder := (vocoder M V).warmCache p.vocoder }
  | .setGain inDb outDb => some { p with vocoder := ((vocoder M V).setGain p.vocoder inDb outDb).1 }

/-- The samples that start `buffer_cap` before the end of the stream. -/
def modelWindow (info : NeuralMeta) (stream : List Int16) : List Int16 :=
  (stream.drop (stream.length - deriveBufferCap info)).take info.pcmInputSamples

/-- The sentinel, and nothing but the samples changes. -/
def Silent (M : EncoderModel F) (s : NeuralVocoder F δ) (pcm : PcmFrame) : Prop :=
  encode M s pcm = (s.accept (M.applyDb s.inDb pcm), .ok silenceFrame)

/-- The model is given `input`, whole, and its outputs are what is coded. -/
def RunsOn (M : EncoderModel F) (s : NeuralVocoder F δ) (pcm : PcmFrame) (input : List Int16) : Prop :=
  input.length = s.info.pcmInputSamples ∧
    (fillScratch M (s.accept (M.applyDb s.inDb pcm))).toList = input.map M.ofSample ∧
    (encode M s pcm).2 = (readOutputs M (M.run (input.map M.ofSample) s.prior)).map encodeVqFrame

def Windowed (M : EncoderModel F) (V : Vocoder δ) (p : Progress F δ) : Call → Prop
  | .encode pcm =>
    let stream := p.stream ++ (M.applyDb p.vocoder.inDb pcm).toList
    (stream.length < p.vocoder.bufferCap → Silent M p.vocoder pcm) ∧
      (p.vocoder.bufferCap ≤ stream.length → RunsOn M p.vocoder pcm (modelWindow p.vocoder.info stream))
  | .reset => ∀ pcm, RunsOn M (reset V p.vocoder) pcm
      (modelWindow p.vocoder.info (.replicate p.vocoder.bufferCap 0 ++ (M.applyDb p.vocoder.inDb pcm).toList))
  | _ => True

theorem fillScratch_full (M : EncoderModel F) {s : NeuralVocoder F δ} (h : s.info.pcmInputSamples ≤ s.samples.length) :
    (fillScratch M s).toList = (s.samples.take s.info.pcmInputSamples).map M.ofSample := by
  apply List.ext_getElem
  · rw [Vector.length_toList, List.length_map, List.length_take_of_le h]
  · intro i hi _
    rw [Vector.length_toList] at hi
    rw [Vector.getElem_toList, List.getElem_map, List.getElem_take]
    unfold fillScratch
    rw [Vector.getElem_ofFn, List.getElem?_eq_getElem (by omega)]

/-- The buffer holds the end of the stream. -/
def Held (p : Progress F δ) : Prop := p.vocoder.samples = recent p.vocoder.bufferCap p.stream

theorem accept_held {p : Progress F δ} (h : Held p) (pcm : PcmFrame) :
    (p.vocoder.accept pcm).samples = recent p.vocoder.bufferCap (p.stream ++ pcm.toList) := by
  unfold accept
  rw [trim_eq_recent, h, recent_recent_append]

theorem runInference_result (M : EncoderModel F) (s : NeuralVocoder F δ) :
    (runInference M s).2 = readOutputs M (M.run (fillScratch M s).toList s.prior) := by
  unfold runInference
  simp only
  have hprior : ({ s with inputScratch := fillScratch M s } : NeuralVocoder F δ).prior = s.prior := rfl
  rw [hprior]
  cases readOutputs M (M.run (fillScratch M s).toList s.prior) with
  | error e => rfl
  | ok vq => rfl

theorem modelWindow_eq (s : NeuralVocoder F δ) (stream : List Int16) :
    modelWindow s.info stream = (recent s.bufferCap stream).take s.info.pcmInputSamples := by
  unfold modelWindow recent
  rw [s.cap_eq]

theorem encode_windowed (M : EncoderModel F) {p : Progress F δ} (h : Held p) (pcm : PcmFrame) :
    let stream := p.stream ++ (M.applyDb p.vocoder.inDb pcm).toList
    (stream.length < p.vocoder.bufferCap → Silent M p.vocoder pcm) ∧
      (p.vocoder.bufferCap ≤ stream.length → RunsOn M p.vocoder pcm (modelWindow p.vocoder.info stream)) := by
  intro stream
  have hsamples : (p.vocoder.accept (M.applyDb p.vocoder.inDb pcm)).samples = recent p.vocoder.bufferCap stream :=
    accept_held h _
  have hlen := congrArg List.length hsamples
  rw [length_recent] at hlen
  constructor
  · intro hshort
    have hwarming : (p.vocoder.accept (M.applyDb p.vocoder.inDb pcm)).samples.length < p.vocoder.bufferCap := by omega
    exact if_pos hwarming
  · intro hfull
    have hready : ¬ (p.vocoder.accept (M.applyDb p.vocoder.inDb pcm)).samples.length < p.vocoder.bufferCap := by omega
    have hcap : p.vocoder.info.pcmInputSamples ≤ p.vocoder.bufferCap := by
      rw [p.vocoder.cap_eq]
      exact pcmInputSamples_le_cap _
    have hscratch := fillScratch_full M (s := p.vocoder.accept (M.applyDb p.vocoder.inDb pcm))
      (Nat.le_trans hcap (by omega))
    rw [hsamples] at hscratch
    rw [modelWindow_eq]
    refine ⟨?_, hscratch, ?_⟩
    · rw [List.length_take, length_recent]
      omega
    · have hencode : encode M p.vocoder pcm = encodeRealFrame M (p.vocoder.accept (M.applyDb p.vocoder.inDb pcm)) :=
        if_neg hready
      have hresult := runInference_result M (p.vocoder.accept (M.applyDb p.vocoder.inDb pcm))
      rw [hscratch] at hresult
      rw [hencode]
      exact congrArg (Except.map encodeVqFrame) hresult

/-! ## Runs -/

theorem held_reset (V : Vocoder δ) (s : NeuralVocoder F δ) :
    Held { vocoder := reset V s, stream := .replicate s.bufferCap 0 } := by
  unfold Held
  exact (recent_of_length_le (Nat.le_of_eq List.length_replicate)).symm

theorem encode_keeps (M : EncoderModel F) (s : NeuralVocoder F δ) (pcm : PcmFrame) :
    (encode M s pcm).1.samples = (s.accept (M.applyDb s.inDb pcm)).samples ∧
      (encode M s pcm).1.bufferCap = s.bufferCap := by
  unfold encode
  simp only
  split
  · exact ⟨rfl, rfl⟩
  · unfold encodeRealFrame runInference
    simp only
    split
    · exact ⟨rfl, rfl⟩
    · split
      · exact ⟨rfl, rfl⟩
      · exact ⟨rfl, rfl⟩

theorem step_held (M : EncoderModel F) (V : Vocoder δ) {p q : Progress F δ} {call : Call} (h : Held p)
    (hstep : step M V p call = some q) : Held q := by
  cases call with
  | encode pcm =>
    obtain ⟨hsamples, hcap⟩ := encode_keeps M p.vocoder pcm
    cases hstep
    unfold Held
    rw [hsamples, hcap, accept_held h]
  | reset =>
    cases hstep
    exact held_reset V p.vocoder
  | decode ambe | warmCache | setGain inDb outDb =>
    cases hstep
    exact h

theorem windowed_of_held (M : EncoderModel F) (V : Vocoder δ) {p : Progress F δ} (h : Held p) (call : Call) :
    Windowed M V p call := by
  cases call with
  | encode pcm => exact encode_windowed M h pcm
  | reset =>
    intro pcm
    apply (encode_windowed M (held_reset V p.vocoder) pcm).2
    rw [List.length_append, List.length_replicate]
    exact Nat.le_add_right _ _
  | decode ambe | warmCache | setGain inDb outDb => trivial

theorem streaming_window :
    (∀ info : NeuralMeta, info.pcmInputSamples ≤ deriveBufferCap info) ∧
      ∀ (F δ : Type) (M : EncoderModel F) (V : Vocoder δ) (info : NeuralMeta) (requiresPrevIndices : Bool) (decoder : δ)
        (calls : List Call),
        Along (step M V) (Windowed M V)
          { vocoder := new M V info requiresPrevIndices decoder, stream := [] } calls := by
  refine ⟨pcmInputSamples_le_cap, ?_⟩
  intro F δ M V info requiresPrevIndices decoder calls
  apply along_of_invariant Held
  · intro p call q hp hstep
    exact step_held M V hp hstep
  · intro p call hp
    exact windowed_of_held M V hp call
  · exact List.drop_nil.symm

end NeuralVocoder

end DmrBridge
