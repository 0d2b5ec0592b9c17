import DmrBridge.Lib.GainReduction
import Mathlib.Algebra.Order.Field.Rat

/-!
# Automatic gain control

`dsp::agc` in exact arithmetic: the envelope follower, the gain that follows it, and the limiter that
looks `LOOKAHEAD_SAMPLES` ahead.
-/

open GainReduction

namespace DmrBridge

def lookaheadSamples : Nat := 16
def limiterCeiling : ℚ := 95 / 100
def fullScale : ℚ := 32768

theorem limiterCeiling_pos : 0 < limiterCeiling := by
  unfold limiterCeiling
  norm_num

theorem limiterCeiling_le_one : limiterCeiling ≤ 1 := by
  unfold limiterCeiling
  norm_num

/-- `AgcParams` as `Agc::new` turns them into linear levels and one-pole coefficients. -/
structure AgcCoefficients where
  target : ℚ
  maxGain : ℚ
  noiseGate : ℚ
  attackAlpha : Alpha ℚ
  releaseAlpha : Alpha ℚ
  lookaheadReleaseAlpha : Alpha ℚ
  target_pos : 0 < target
  maxGain_pos : 0 < maxGain

structure AgcSummary where
  samples : Nat
  frozenSamples : Nat
  gainMin : Option ℚ
  gainMax : Option ℚ
  gainSum : ℚ
  peakIn : ℚ
  peakOut : ℚ
  limitedSamples : Nat
  grMin : Option ℚ
  clippedSamples : Nat

def AgcSummary.default : AgcSummary where
  samples := 0
  frozenSamples := 0
  gainMin := none
  gainMax := none
  gainSum := 0
  peakIn := 0
  peakOut := 0
  limitedSamples := 0
  grMin := none
  clippedSamples := 0

structure Agc extends AgcCoefficients where
  envelope : ℚ
  gain : ℚ
  /-- Oldest first. -/
  lookaheadBuf : List ℚ
  lookaheadGr : ℚ
  summary : AgcSummary
  gain_pos : 0 < gain
  gr_pos : 0 < lookaheadGr
  gr_le_one : lookaheadGr ≤ 1

namespace Agc

def new (coefficients : AgcCoefficients) : Agc where
  toAgcCoefficients := coefficients
  envelope := 0
  gain := 1
  lookaheadBuf := []
  lookaheadGr := 1
  summary := .default
  gain_pos := one_pos
  gr_pos := one_pos
  gr_le_one := le_refl 1

/-- The summary stays. -/
def reset (s : Agc) : Agc :=
  { s with envelope := 0, gain := 1, lookaheadBuf := [], lookaheadGr := 1
           gain_pos := one_pos, gr_pos := one_pos, gr_le_one := le_refl 1 }

/-! ## One sample -/

def countSample (s : Agc) (absX : ℚ) : Agc :=
  { s with summary := { s.summary with samples := s.summary.samples + 1, peakIn := max s.summary.peakIn absX } }

def followEnvelope (s : Agc) (absX : ℚ) : Agc :=
  { s with envelope := toward (if s.envelope < absX then s.attackAlpha else s.releaseAlpha) s.envelope absX }

def targetGain (s : Agc) : ℚ := min (s.target / max s.envelope (1 / 1000000)) s.maxGain

theorem targetGain_pos (s : Agc) : 0 < s.targetGain := by
  apply lt_min
  · apply div_pos s.target_pos
    exact lt_of_lt_of_le (by norm_num) (le_max_right _ _)
  · exact s.maxGain_pos

/-- Below the noise gate the gain is frozen. -/
def followGain (s : Agc) (absX : ℚ) : Agc :=
  if s.noiseGate ≤ absX then
    { s with gain := toward (if s.targetGain < s.gain then s.attackAlpha else s.releaseAlpha) s.gain s.targetGain
             gain_pos := toward_pos _ s.gain_pos s.targetGain_pos }
  else { s with summary := { s.summary with frozenSamples := s.summary.frozenSamples + 1 } }

def recordGain (s : Agc) : Agc :=
  { s with summary := { s.summary with
      gainSum := s.summary.gainSum + s.gain
      gainMin := some (s.summary.gainMin.elim s.gain fun m => min m s.gain)
      gainMax := some (s.summary.gainMax.elim s.gain fun m => max m s.gain) } }

/-- All that happens to a sample on its way into the look-ahead buffer. -/
def takeIn (s : Agc) (x : ℚ) : Agc :=
  let s := (((s.countSample |x|).followEnvelope |x|).followGain |x|).recordGain
  { s with lookaheadBuf := s.lookaheadBuf ++ [x] }

/-- `gr_req` -/
def grReq (s : Agc) : ℚ := required limiterCeiling (peak s.lookaheadBuf * s.gain)

/-- Attack is instantaneous, release is one-pole. -/
def reduceGain (s : Agc) : Agc :=
  if s.grReq < s.lookaheadGr then
    { s with lookaheadGr := s.grReq
             gr_pos := required_pos limiterCeiling_pos _
             gr_le_one := required_le_one limiterCeiling_pos _ }
  else
    { s with lookaheadGr := min (toward s.lookaheadReleaseAlpha s.lookaheadGr 1) 1
             gr_pos := lt_min (toward_pos _ s.gr_pos one_pos) one_pos
             gr_le_one := min_le_right _ _ }

def recordReduction (s : Agc) : Agc :=
  if s.lookaheadGr < 1 then
    { s with summary := { s.summary with
        limitedSamples := s.summary.limitedSamples + 1
        grMin := some (s.summary.grMin.elim s.lookaheadGr fun m => min m s.lookaheadGr) } }
  else s

def clamp (y : ℚ) : ℚ := max (-1) (min y 1)

def recordOutput (s : Agc) (yRaw : ℚ) : Agc :=
  { s with summary := { s.summary with
      clippedSamples := if 1 < |yRaw| then s.summary.clippedSamples + 1 else s.summary.clippedSamples
      peakOut := max s.summary.peakOut |clamp yRaw| } }

/-- The value before the clamp, once the buffer is full. -/
def advance (s : Agc) (x : ℚ) : Agc × Option ℚ :=
  let s := s.takeIn x
  if s.lookaheadBuf.length ≤ lookaheadSamples then (s, none)
  else
    let s := s.reduceGain.recordReduction
    match s.lookaheadBuf with
    -- `expect`: the sample has just been pushed
    | [] => (s, none)
    | oldest :: rest =>
      let yRaw := oldest * s.gain * s.lookaheadGr
      ({ s with lookaheadBuf := rest }.recordOutput yRaw, some yRaw)

/-! ## Frames -/

/-- `as i16`: toward zero, and saturating. -/
def toInt16 (v : ℚ) : Int16 := Int16.ofInt (max (-32768) (min (v.num.tdiv v.den) 32767))

def process (s : Agc) : List Int16 → Agc × List Int16
  | [] => (s, [])
  | sample :: samples =>
    let (s, yRaw) := s.advance (sample.toInt / fullScale)
    let (s, rest) := process s samples
    (s, (yRaw.elim 0 fun y => toInt16 (clamp y * fullScale)) :: rest)

end Agc

end DmrBridge
