import DmrBridge.Lib.Lookahead
import DmrBridge.Lib.Run
import DmrBridge.VqFields

/-!
# The neural decoders

`NativeGruDecoder` and `NeuralDecoderVocoder` hold two frames back for the model, which is `tract` and
floating point: a parameter here. A call whose model run fails returns before the queues move.
-/

open Lookahead Run DmrBridge.VoiceChannel

namespace DmrBridge

/-- `b0 = 124`, the other indices 0 -/
def silenceFrame : AmbeFrame := encodeFromAmbeD (.ofFn fun p => decide (p.val ∈ [0, 1, 2, 3, 37]))

def b0SpecialMin : Nat := 120

variable {μ η ρ : Type}

structure GruDecoder (μ η ρ : Type) extends Line VqIndices where
  prevMu : μ
  h : η
  rng : ρ
  outDb : Db
  muSilence : μ

/-- The frame model and then the steps of one frame. What a failed run did to `h` stays. -/
structure GruModel (μ η ρ : Type) where
  run : μ → η → ρ → Lookahead.Window VqIndices → η × ρ × Except VocoderError (μ × PcmFrame)
  zeroed : η → η
  applyDb : Db → PcmFrame → PcmFrame

namespace GruDecoder

def fresh (muSilence : μ) (h : η) (rng : ρ) : GruDecoder μ η ρ where
  pending := []
  history := []
  prevMu := muSilence
  h
  rng
  outDb := 0
  muSilence

def b0 (vq : VqIndices) : Nat := vq.getD 0 0

/-- Erasure, silence and tone frames go past the model. -/
def runFrame (M : GruModel μ η ρ) (s : GruDecoder μ η ρ) (window : Lookahead.Window VqIndices) :
    GruDecoder μ η ρ × Except VocoderError PcmFrame :=
  if b0SpecialMin ≤ b0 window.target then
    ({ s with prevMu := s.muSilence }, .ok (M.applyDb s.outDb (.replicate 160 0)))
  else
    match M.run s.prevMu s.h s.rng window with
    | (h, rng, .error e) => ({ s with h, rng }, .error e)
    | (h, rng, .ok (prevMu, pcm)) => ({ s with h, rng, prevMu }, .ok (M.applyDb s.outDb pcm))

def vqOf (ambe : Option AmbeFrame) : VqIndices := frameToVq (ambe.getD silenceFrame)

def decode (M : GruModel μ η ρ) (s : GruDecoder μ η ρ) (ambe : Option AmbeFrame) :
    GruDecoder μ η ρ × Except VocoderError PcmFrame :=
  let s := { s with toLine := s.toLine.push (vqOf ambe) }
  match s.toLine.window with
  | none => (s, .ok (.replicate 160 0))
  | some window =>
    match runFrame M s window with
    | (s, .error e) => (s, .error e)
    | (s, .ok pcm) => ({ s with toLine := s.toLine.shift }, .ok pcm)

def reset (M : GruModel μ η ρ) (s : GruDecoder μ η ρ) : GruDecoder μ η ρ :=
  { s with pending := [], history := [], prevMu := s.muSilence, h := M.zeroed s.h }

def setGain (s : GruDecoder μ η ρ) (_inDb outDb : Db) : GruDecoder μ η ρ × Except VocoderError Unit :=
  ({ s with outDb }, .ok ())

end GruDecoder

namespace NativeGruDecoder

def muSilence : UInt8 := 128

def new (h : η) (rng : ρ) : GruDecoder UInt8 η ρ := .fresh muSilence h rng

/-- One run over zeros, for the caches. -/
def warmCache (M : GruModel UInt8 η ρ) (s : GruDecoder UInt8 η ρ) : GruDecoder UInt8 η ρ :=
  let dummy : VqIndices := .replicate 9 0
  ((s.runFrame M { past2 := dummy, past1 := dummy, target := dummy, future1 := dummy, future2 := dummy }).1).reset M

def vocoder (M : GruModel UInt8 η ρ) : Vocoder (GruDecoder UInt8 η ρ) where
  encode s _ := (s, .error (.unsupported "NativeGruDecoder does not support encode"))
  decode := GruDecoder.decode M
  reset := GruDecoder.reset M
  warmCache := warmCache M
  setGain := GruDecoder.setGain

end NativeGruDecoder

namespace NeuralDecoderVocoder

/-- The silent level is read from the model file. -/
def new (muSilence : Int64) (h : η) (rng : ρ) : GruDecoder Int64 η ρ := .fresh muSilence h rng

def vocoder (M : GruModel Int64 η ρ) : Vocoder (GruDecoder Int64 η ρ) where
  encode s _ := (s, .error (.unsupported "NeuralDecoderVocoder does not support encode"))
  decode := GruDecoder.decode M
  reset := GruDecoder.reset M
  warmCache := id
  setGain := GruDecoder.setGain

end NeuralDecoderVocoder

/-! ## Runs -/

namespace GruDecoder

inductive Call where
  | decode (ambe : Option AmbeFrame)
  | reset

/-- The decoder, the frames it was given since it was made or last reset, and how many of them ended
in a failed model run. -/
structure Progress (μ η ρ : Type) where
  decoder : GruDecoder μ η ρ
  heard : List VqIndices
  failed : Nat

def Progress.start (s : GruDecoder μ η ρ) : Progress μ η ρ := { decoder := s, heard := [], failed := 0 }

def failures {α : Type} : Except VocoderError α → Nat
  | .ok _ => 0
  | .error _ => 1

def step (M : GruModel μ η ρ) (p : Progress μ η ρ) : Call → Option (Progress μ η ρ)
  | .decode ambe =>
    let result := decode M p.decoder ambe
    some { decoder := result.1, heard := p.heard ++ [vqOf ambe], failed := p.failed + failures result.2 }
  | .reset => some (.start (reset M p.decoder))

/-- The call hands the model exactly `window`, and returns what `run_frame` makes of it. -/
def Synthesises (M : GruModel μ η ρ) (s : GruDecoder μ η ρ) (ambe : Option AmbeFrame)
    (window : Option (Lookahead.Window VqIndices)) : Prop :=
  (s.toLine.push (vqOf ambe)).window = window ∧
    ∃ w, window = some w ∧
      (decode M s ambe).2 = (runFrame M { s with toLine := s.toLine.push (vqOf ambe) } w).2

/-- At most two frames wait, and call `k + 1` synthesises frame `k - 2`. -/
def OnTime (M : GruModel μ η ρ) (p : Progress μ η ρ) : Call → Prop
  | .decode ambe =>
    (decode M p.decoder ambe).1.pending.length ≤ 2 ∧ (decode M p.decoder ambe).1.history.length ≤ 2 ∧
      ∀ pcm, 2 ≤ p.heard.length → (decode M p.decoder ambe).2 = .ok pcm →
        Synthesises M p.decoder ambe (windowAt (p.heard ++ [vqOf ambe]) (p.heard.length - 2))
  | .reset => True

/-- No model run, or one that succeeds. -/
def Passes (M : GruModel μ η ρ) (s : GruDecoder μ η ρ) (window : Lookahead.Window VqIndices) : Prop :=
  b0 window.target < b0SpecialMin → ∃ h rng out, M.run s.prevMu s.h s.rng window = (h, rng, .ok out)

def ModelRuns (M : GruModel μ η ρ) (p : Progress μ η ρ) : Call → Prop
  | .decode ambe => ∀ w, (p.decoder.toLine.push (vqOf ambe)).window = some w → Passes M p.decoder w
  | .reset => True

/-! ## One call -/

theorem runFrame_cases (M : GruModel μ η ρ) (s : GruDecoder μ η ρ) (w : Lookahead.Window VqIndices) :
    (runFrame M s w).1.toLine = s.toLine ∧
      ((Passes M s w ∧ ∃ pcm, (runFrame M s w).2 = .ok pcm) ∨
        (¬ Passes M s w ∧ ∃ e, (runFrame M s w).2 = .error e)) := by
  unfold runFrame Passes
  split
  · rename_i hspecial
    exact ⟨rfl, .inl ⟨fun hvoice => absurd hspecial (Nat.not_le_of_lt hvoice), _, rfl⟩⟩
  · rename_i hvoice
    split
    · rename_i h rng e hrun
      refine ⟨rfl, .inr ⟨fun hpass => ?_, e, rfl⟩⟩
      obtain ⟨h', rng', out, hok⟩ := hpass (Nat.lt_of_not_le hvoice)
      rw [hrun] at hok
      cases hok
    · rename_i h rng prevMu pcm hrun
      exact ⟨rfl, .inl ⟨fun _ => ⟨h, rng, (prevMu, pcm), hrun⟩, _, rfl⟩⟩

theorem decode_cases (M : GruModel μ η ρ) (s : GruDecoder μ η ρ) (ambe : Option AmbeFrame) :
    ((s.toLine.push (vqOf ambe)).window = none ∧ (decode M s ambe).1.toLine = s.toLine.push (vqOf ambe) ∧
        (decode M s ambe).2 = .ok (.replicate 160 0)) ∨
      ∃ w, (s.toLine.push (vqOf ambe)).window = some w ∧
        (decode M s ambe).2 = (runFrame M { s with toLine := s.toLine.push (vqOf ambe) } w).2 ∧
        ((Passes M s w ∧ (∃ pcm, (decode M s ambe).2 = .ok pcm) ∧
            (decode M s ambe).1.toLine = (s.toLine.push (vqOf ambe)).shift) ∨
          (¬ Passes M s w ∧ (∃ e, (decode M s ambe).2 = .error e) ∧
            (decode M s ambe).1.toLine = s.toLine.push (vqOf ambe))) := by
  unfold decode
  simp only
  split
  · rename_i hwindow
    exact .inl ⟨hwindow, rfl, rfl⟩
  · rename_i w hwindow
    right
    obtain ⟨hline, hresult⟩ := runFrame_cases M { s with toLine := s.toLine.push (vqOf ambe) } w
    refine ⟨w, hwindow, ?_⟩
    split
    · rename_i t e hrun
      rw [hrun] at hline hresult ⊢
      refine ⟨rfl, .inr ?_⟩
      rcases hresult with ⟨-, pcm, hok⟩ | ⟨hfail, -⟩
      · cases hok
      · exact ⟨hfail, ⟨e, rfl⟩, hline⟩
    · rename_i t pcm hrun
      rw [hrun] at hline hresult ⊢
      refine ⟨rfl, .inl ?_⟩
      rcases hresult with ⟨hpass, -⟩ | ⟨-, e, herror⟩
      · exact ⟨hpass, ⟨pcm, rfl⟩, congrArg Line.shift hline⟩
      · cases herror

/-! ## The invariant -/

/-- Every failed model run keeps one frame more from leaving the line. -/
structure Kept (p : Progress μ η ρ) : Prop where
  few : p.failed ≤ p.heard.length - 2
  line : p.decoder.toLine = lineAt p.heard (p.heard.length - 2 - p.failed)

theorem kept_start {s : GruDecoder μ η ρ} (hpending : s.pending = []) (hhistory : s.history = []) :
    Kept (.start s) := by
  refine ⟨Nat.zero_le _, ?_⟩
  show s.toLine = lineAt [] 0
  obtain ⟨⟨pending, history⟩, _, _, _, _, _⟩ := s
  cases hpending
  cases hhistory
  rfl

theorem Kept.push {p : Progress μ η ρ} (h : Kept p) (x : VqIndices) :
    p.decoder.toLine.push x = lineAt (p.heard ++ [x]) (p.heard.length - 2 - p.failed) := by
  rw [h.line, push_lineAt _ (by omega)]

/-- The window of a call: none in the first two, then the one that the failures leave. -/
theorem Kept.window {p : Progress μ η ρ} (h : Kept p) (x : VqIndices) :
    (p.decoder.toLine.push x).window =
      if 2 ≤ p.heard.length then windowAt (p.heard ++ [x]) (p.heard.length - 2 - p.failed) else none := by
  have hfew := h.few
  rw [h.push]
  split
  · exact window_lineAt _ (by rw [List.length_append, List.length_singleton]; omega)
  · exact window_lineAt_none _ (by rw [List.length_append, List.length_singleton]; omega)

theorem windowAt_isSome (items : List VqIndices) {d : Nat} (h : d + 2 < items.length) :
    ∃ w, windowAt items d = some w := by
  unfold windowAt
  rw [List.getElem?_eq_getElem (by omega), List.getElem?_eq_getElem (by omega), List.getElem?_eq_getElem (by omega),
    List.getElem?_eq_getElem (by omega), List.getElem?_eq_getElem (by omega)]
  exact ⟨_, rfl⟩

theorem Kept.window_eq_none {p : Progress μ η ρ} (h : Kept p) (x : VqIndices) :
    (p.decoder.toLine.push x).window = none ↔ p.heard.length < 2 := by
  have hfew := h.few
  rw [h.window]
  split
  · obtain ⟨w, hw⟩ := windowAt_isSome (p.heard ++ [x]) (d := p.heard.length - 2 - p.failed) (by
      rw [List.length_append, List.length_singleton]
      omega)
    rw [hw]
    constructor
    · rintro ⟨⟩
    · omega
  · constructor
    · omega
    · intro _
      rfl

theorem Kept.length_of_window {p : Progress μ η ρ} (h : Kept p) {x : VqIndices} {w : Lookahead.Window VqIndices}
    (hw : (p.decoder.toLine.push x).window = some w) : 2 ≤ p.heard.length := by
  by_contra hshort
  rw [(h.window_eq_none x).mpr (by omega)] at hw
  cases hw

/-- After a decode: `n` is 1 when its model run failed, and `d` frames have left the line. -/
theorem kept_decode {M : GruModel μ η ρ} {p : Progress μ η ρ} {ambe : Option AmbeFrame} {n d : Nat}
    (hn : failures (decode M p.decoder ambe).2 = n) (hfew : p.failed + n ≤ p.heard.length + 1 - 2)
    (hline : (decode M p.decoder ambe).1.toLine = lineAt (p.heard ++ [vqOf ambe]) d)
    (hd : d = p.heard.length + 1 - 2 - (p.failed + n)) :
    Kept { decoder := (decode M p.decoder ambe).1, heard := p.heard ++ [vqOf ambe],
           failed := p.failed + failures (decode M p.decoder ambe).2 } := by
  refine ⟨?_, ?_⟩
  · rw [hn, List.length_append, List.length_singleton]
    exact hfew
  · rw [hn, List.length_append, List.length_singleton, ← hd]
    exact hline

theorem step_kept (M : GruModel μ η ρ) {p q : Progress μ η ρ} {call : Call} (h : Kept p)
    (hstep : step M p call = some q) : Kept q := by
  cases call with
  | reset =>
    cases hstep
    exact kept_start rfl rfl
  | decode ambe =>
    have hfew := h.few
    have hpush := h.push (vqOf ambe)
    cases hstep
    rcases decode_cases M p.decoder ambe with ⟨hnone, hline, hok⟩ | ⟨w, hsome, -, hcase⟩
    · have hshort := (h.window_eq_none (vqOf ambe)).mp hnone
      exact kept_decode (n := 0) (congrArg failures hok) (by omega) (hline.trans hpush) (by omega)
    · have hlong := h.length_of_window hsome
      rcases hcase with ⟨-, ⟨pcm, hok⟩, hline⟩ | ⟨-, ⟨e, herror⟩, hline⟩
      · rw [hpush, shift_lineAt _ (by rw [List.length_append, List.length_singleton]; omega)] at hline
        exact kept_decode (n := 0) (congrArg failures hok) (by omega) hline (by omega)
      · exact kept_decode (n := 1) (congrArg failures herror) (by omega) (hline.trans hpush) (by omega)

/-- A call sees the frames that came `failed` calls too early. -/
theorem window_along (M : GruModel μ η ρ) {p : Progress μ η ρ} (h : Kept p) (calls : List Call) :
    Along (step M) (fun p call => ∀ ambe, call = .decode ambe → (p.decoder.toLine.push (vqOf ambe)).window =
      if 2 ≤ p.heard.length then windowAt (p.heard ++ [vqOf ambe]) (p.heard.length - 2 - p.failed)
      else none) p calls := by
  apply along_of_invariant Kept
  · intro p call q hp hstep
    exact step_kept M hp hstep
  · rintro p call hp ambe -
    exact hp.window (vqOf ambe)
  · exact h

/-! ## Calls on time -/

theorem lengths_lineAt {s : GruDecoder μ η ρ} {items : List VqIndices} {d : Nat} (h : s.toLine = lineAt items d) :
    s.pending.length = items.length - d ∧ s.history.length ≤ 2 := by
  show s.toLine.pending.length = _ ∧ s.toLine.history.length ≤ 2
  rw [h]
  exact ⟨List.length_drop, Nat.le_trans (Nat.le_of_eq (Recent.length_recent 2 _)) (Nat.min_le_left _ _)⟩

theorem onTime_iff (M : GruModel μ η ρ) {p : Progress μ η ρ} (h : Kept p) (hclean : p.failed = 0) (call : Call) :
    OnTime M p call ↔ ModelRuns M p call := by
  cases call with
  | reset => exact Iff.rfl
  | decode ambe =>
    have hwindow := h.window (vqOf ambe)
    have hpush := h.push (vqOf ambe)
    have hlen : (p.heard ++ [vqOf ambe]).length = p.heard.length + 1 := List.length_append
    rw [hclean, Nat.sub_zero] at hwindow hpush
    unfold OnTime ModelRuns Synthesises
    rcases decode_cases M p.decoder ambe with ⟨hnone, hline, hok⟩ | ⟨w, hsome, hrun, hcase⟩
    · have hshort := (h.window_eq_none (vqOf ambe)).mp hnone
      obtain ⟨hpending, hhistory⟩ := lengths_lineAt (hline.trans hpush)
      constructor
      · intro _ w hw
        rw [hnone] at hw
        cases hw
      · intro _
        exact ⟨by omega, hhistory, fun pcm hlong => absurd hlong (Nat.not_le_of_lt hshort)⟩
    · have hlong := h.length_of_window hsome
      rw [if_pos hlong] at hwindow
      rcases hcase with ⟨hpass, -, hline⟩ | ⟨hfail, -, hline⟩
      · rw [hpush, shift_lineAt _ (by omega)] at hline
        obtain ⟨hpending, hhistory⟩ := lengths_lineAt hline
        constructor
        · intro _ w' hw'
          rw [hsome] at hw'
          cases hw'
          exact hpass
        · intro _
          exact ⟨by omega, hhistory, fun pcm _ _ => ⟨hwindow, w, hwindow.symm.trans hsome, hrun⟩⟩
      · obtain ⟨hpending, -⟩ := lengths_lineAt (hline.trans hpush)
        constructor
        · rintro ⟨htwo, -⟩
          omega
        · intro hall
          exact absurd (hall w hsome) hfail

theorem clean_step (M : GruModel μ η ρ) {p q : Progress μ η ρ} {call : Call} (hclean : p.failed = 0)
    (hok : ModelRuns M p call) (hstep : step M p call = some q) : q.failed = 0 := by
  cases call with
  | reset =>
    cases hstep
    rfl
  | decode ambe =>
    cases hstep
    rcases decode_cases M p.decoder ambe with ⟨-, -, hsilence⟩ | ⟨w, hsome, -, ⟨-, ⟨pcm, hpcm⟩, -⟩ | ⟨hfail, -, -⟩⟩
    · rw [hsilence, hclean]
      rfl
    · rw [hpcm, hclean]
      rfl
    · exact absurd (hok w hsome) hfail

/-- From a decoder just made, a run is on time exactly when no model run of it fails. -/
theorem onTime_along (M : GruModel μ η ρ) (muSilence : μ) (h : η) (rng : ρ) (calls : List Call) :
    Along (step M) (OnTime M) (.start (fresh muSilence h rng)) calls ↔
      Along (step M) (ModelRuns M) (.start (fresh muSilence h rng)) calls := by
  apply along_congr_of_invariant fun p => Kept p ∧ p.failed = 0
  · rintro p call q ⟨hkept, hclean⟩ hok hstep
    exact ⟨step_kept M hkept hstep, clean_step M hclean hok hstep⟩
  · rintro p call ⟨hkept, hclean⟩
    exact onTime_iff M hkept hclean call
  · exact ⟨kept_start rfl rfl, rfl⟩

theorem lookahead_iff (h : η) (rng : ρ) (calls : List Call) :
    (∀ M : GruModel UInt8 η ρ, Along (step M) (OnTime M) (.start (NativeGruDecoder.new h rng)) calls ↔
        Along (step M) (ModelRuns M) (.start (NativeGruDecoder.new h rng)) calls) ∧
      ∀ (M : GruModel Int64 η ρ) (muSilence : Int64),
        Along (step M) (OnTime M) (.start (NeuralDecoderVocoder.new muSilence h rng)) calls ↔
          Along (step M) (ModelRuns M) (.start (NeuralDecoderVocoder.new muSilence h rng)) calls :=
  ⟨fun M => onTime_along M NativeGruDecoder.muSilence h rng calls,
    fun M muSilence => onTime_along M muSilence h rng calls⟩

def failingModel : GruModel UInt8 Unit Unit where
  run _ h rng _ := (h, rng, .error (.decode "frame inference"))
  zeroed h := h
  applyDb _ pcm := pcm

/-- A voice frame: index 0 throughout. -/
def voiceFrame : AmbeFrame := encodeVqFrame (.replicate 9 0)

theorem vqOf_voiceFrame : vqOf (some voiceFrame) = .replicate 9 0 := frameToVq_encodeVqFrame _ (by decide)

/-- `n` voice frames have come to a decoder just made. -/
def waiting (n : Nat) : Progress UInt8 Unit Unit where
  decoder := { (NativeGruDecoder.new () () : GruDecoder UInt8 Unit Unit) with pending := .replicate n (.replicate 9 0) }
  heard := .replicate n (.replicate 9 0)
  failed := 0

theorem step_waiting {n : Nat} (h : n < 2) :
    step failingModel (waiting n) (.decode (some voiceFrame)) = some (waiting (n + 1)) := by
  simp only [step, decode, vqOf_voiceFrame]
  match n, h with
  | 0, _ => rfl
  | 1, _ => rfl

/-- The third call fails and leaves three frames waiting. -/
theorem lookahead_slips :
    ¬ ∀ (M : GruModel UInt8 Unit Unit) (calls : List Call), Along (step M) (OnTime M)
      (.start (NativeGruDecoder.new () ())) calls := by
  intro hall
  obtain ⟨-, hrest⟩ := hall failingModel
    [.decode (some voiceFrame), .decode (some voiceFrame), .decode (some voiceFrame)]
  obtain ⟨-, hrest⟩ := hrest _ (step_waiting (n := 0) (by decide))
  obtain ⟨⟨hwaiting, -⟩, -⟩ := hrest _ (step_waiting (n := 1) (by decide))
  unfold decode at hwaiting
  rw [vqOf_voiceFrame] at hwaiting
  exact absurd hwaiting (by decide)

end GruDecoder

end DmrBridge
