import DmrBridge.Agc
import DmrBridge.Lib.Run

/-!
# The ceiling of the limiter

A peak in the look-ahead buffer pulls the gain reduction down at once. The step after, which needs no
more than that, already releases it, while the peak is still there.
-/

open GainReduction Run

namespace DmrBridge.Agc

/-- One round of the loop of `process`. -/
def step (s : Agc) (x : ℚ) : Agc × List ℚ := ((s.advance x).1, (s.advance x).2.toList)

/-- Every value is under the ceiling before the clamp, and the clamp never fires. -/
def Limited (s : Agc) (xs : List ℚ) : Prop :=
  (∀ y ∈ (exec step s xs).2, |y| ≤ limiterCeiling) ∧
    (exec step s xs).1.summary.clippedSamples = s.summary.clippedSamples

/-- A step that releases the gain reduction leaves it at no more than the oldest sample requires. -/
def ReleaseFits (s : Agc) (x : ℚ) : Prop :=
  let s := s.takeIn x
  lookaheadSamples < s.lookaheadBuf.length → s.lookaheadGr ≤ s.grReq →
    ∀ oldest, s.lookaheadBuf.head? = some oldest →
      toward s.lookaheadReleaseAlpha s.lookaheadGr 1 ≤ required limiterCeiling (|oldest| * s.gain)

/-- The gain that a sample finds: one pole after the target over the envelope, or frozen under the noise gate. -/
def nextGain (s : Agc) (x : ℚ) : ℚ :=
  let envelope := toward (if s.envelope < |x| then s.attackAlpha else s.releaseAlpha) s.envelope |x|
  let target := min (s.target / max envelope (1 / 1000000)) s.maxGain
  if s.noiseGate ≤ |x| then toward (if target < s.gain then s.attackAlpha else s.releaseAlpha) s.gain target
  else s.gain

/-- If the oldest sample is over the ceiling, some sample in the buffer is over it in spite of the gain reduction so
far: then the limiter attacks. -/
def HoldsOldest (s : Agc) (x : ℚ) : Prop :=
  lookaheadSamples ≤ s.lookaheadBuf.length → ∀ oldest ∈ s.lookaheadBuf.head?,
    limiterCeiling < |oldest| * s.nextGain x →
      ∃ v ∈ s.lookaheadBuf ++ [x], limiterCeiling < |v| * s.nextGain x * s.lookaheadGr

instance (s : Agc) (x : ℚ) : Decidable (HoldsOldest s x) :=
  inferInstanceAs (Decidable (_ → ∀ oldest ∈ s.lookaheadBuf.head?, _ → ∃ v ∈ s.lookaheadBuf ++ [x], _))

/-- A frame is a run over its samples, and what is not warm-up in its output was emitted by the run. -/
theorem process_run (s : Agc) (samples : List Int16) :
    (s.process samples).1 = (exec step s (samples.map fun sample => sample.toInt / fullScale)).1 ∧
      ∀ out ∈ (s.process samples).2, out = 0 ∨
        ∃ y ∈ (exec step s (samples.map fun sample => sample.toInt / fullScale)).2,
          out = toInt16 (clamp y * fullScale) := by
  induction samples generalizing s with
  | nil =>
    refine ⟨rfl, ?_⟩
    rintro out ⟨⟩
  | cons sample samples ih =>
    obtain ⟨hend, houts⟩ := ih (s.advance (sample.toInt / fullScale)).1
    rw [process, List.map_cons, exec]
    refine ⟨hend, ?_⟩
    intro out hout
    rcases List.mem_cons.mp hout with rfl | hout
    · unfold step
      cases (s.advance (sample.toInt / fullScale)).2 with
      | none => exact .inl rfl
      | some y => exact .inr ⟨y, List.mem_append_left _ (List.mem_singleton.mpr rfl), rfl⟩
    · rcases houts out hout with hzero | ⟨y, hy, hquantized⟩
      · exact .inl hzero
      · exact .inr ⟨y, List.mem_append_right _ hy, hquantized⟩

/-! ## One step -/

theorem takeIn_clipped (s : Agc) (x : ℚ) : (s.takeIn x).summary.clippedSamples = s.summary.clippedSamples := by
  unfold takeIn recordGain followGain
  simp only
  split
  · rfl
  · rfl

theorem takeIn_gain (s : Agc) (x : ℚ) : (s.takeIn x).gain = s.nextGain x := by
  unfold takeIn recordGain followGain nextGain
  simp only
  split
  · rename_i hloud
    exact (if_pos hloud).symm
  · rename_i hquiet
    exact (if_neg hquiet).symm

theorem takeIn_keeps (s : Agc) (x : ℚ) :
    (s.takeIn x).toAgcCoefficients = s.toAgcCoefficients ∧ (s.takeIn x).lookaheadBuf = s.lookaheadBuf ++ [x] ∧
      (s.takeIn x).lookaheadGr = s.lookaheadGr := by
  unfold takeIn recordGain followGain
  simp only
  split
  · exact ⟨rfl, rfl, rfl⟩
  · exact ⟨rfl, rfl, rfl⟩

theorem reduceGain_gr (s : Agc) : s.reduceGain.lookaheadGr =
    if s.grReq < s.lookaheadGr then s.grReq else toward s.lookaheadReleaseAlpha s.lookaheadGr 1 := by
  unfold reduceGain
  split
  · rfl
  · exact min_eq_left (toward_le _ s.gr_le_one (le_refl 1))

/-- The limiter leaves all else alone. -/
theorem limit_keeps (s : Agc) :
    let t := s.reduceGain.recordReduction
    t.lookaheadBuf = s.lookaheadBuf ∧ t.gain = s.gain ∧ t.lookaheadGr = s.reduceGain.lookaheadGr ∧
      t.summary.clippedSamples = s.summary.clippedSamples ∧ t.toAgcCoefficients = s.toAgcCoefficients := by
  have hreduce : s.reduceGain.lookaheadBuf = s.lookaheadBuf ∧ s.reduceGain.gain = s.gain ∧
      s.reduceGain.summary = s.summary ∧ s.reduceGain.toAgcCoefficients = s.toAgcCoefficients := by
    unfold reduceGain
    split
    · exact ⟨rfl, rfl, rfl, rfl⟩
    · exact ⟨rfl, rfl, rfl, rfl⟩
  obtain ⟨hbuf, hgain, hsummary, hsame⟩ := hreduce
  rw [← hbuf, ← hgain, ← hsummary, ← hsame]
  unfold recordReduction
  split
  · exact ⟨rfl, rfl, rfl, rfl, rfl⟩
  · exact ⟨rfl, rfl, rfl, rfl, rfl⟩

/-- The value emitted, and what it does to the count of clipped samples. -/
theorem advance_cases (s : Agc) (x : ℚ) :
    ((s.takeIn x).lookaheadBuf.length ≤ lookaheadSamples ∧ s.advance x = (s.takeIn x, none)) ∨
      (lookaheadSamples < (s.takeIn x).lookaheadBuf.length ∧
        ∃ oldest rest, (s.takeIn x).lookaheadBuf = oldest :: rest ∧
          (s.advance x).2 = some (oldest * (s.takeIn x).gain * (s.takeIn x).reduceGain.lookaheadGr) ∧
          (|oldest * (s.takeIn x).gain * (s.takeIn x).reduceGain.lookaheadGr| ≤ 1 →
            (s.advance x).1.summary.clippedSamples = s.summary.clippedSamples)) := by
  have hclipped := takeIn_clipped s x
  unfold advance
  simp only
  generalize s.takeIn x = t at hclipped ⊢
  split
  · rename_i hfilling
    exact .inl ⟨hfilling, rfl⟩
  · rename_i hfull
    right
    refine ⟨Nat.lt_of_not_le hfull, ?_⟩
    obtain ⟨hbuf, hgain, hgr, hsummary, -⟩ := limit_keeps t
    rw [← hbuf] at hfull ⊢
    rw [← hgain, ← hgr, ← hclipped, ← hsummary]
    generalize t.reduceGain.recordReduction = limited at hfull
    cases hwindow : limited.lookaheadBuf with
    | nil =>
      rw [hwindow] at hfull
      exact absurd (Nat.zero_le _) hfull
    | cons oldest rest =>
      refine ⟨oldest, rest, rfl, rfl, ?_⟩
      intro hunder
      exact if_neg (not_lt.mpr hunder)

/-- A value is under the ceiling when the gain reduction was pulled down, and otherwise as far as it
was released no further than its sample requires. -/
theorem output_le_iff (s : Agc) {oldest : ℚ} (h : oldest ∈ s.lookaheadBuf) :
    |oldest * s.gain * s.reduceGain.lookaheadGr| ≤ limiterCeiling ↔
      (s.lookaheadGr ≤ s.grReq →
        toward s.lookaheadReleaseAlpha s.lookaheadGr 1 ≤ required limiterCeiling (|oldest| * s.gain)) := by
  have hpart : 0 ≤ |oldest| * s.gain := mul_nonneg (abs_nonneg oldest) s.gain_pos.le
  have hpeak : |oldest| * s.gain ≤ peak s.lookaheadBuf * s.gain :=
    mul_le_mul_of_nonneg_right (abs_le_peak h) s.gain_pos.le
  rw [abs_mul, abs_mul, abs_of_pos s.gain_pos, abs_of_pos s.reduceGain.gr_pos,
    mul_le_iff limiterCeiling_pos hpart s.reduceGain.gr_le_one, reduceGain_gr]
  split
  · rename_i hattack
    constructor
    · intro _ hrelease
      exact absurd hattack (not_lt.mpr hrelease)
    · intro _
      exact required_anti limiterCeiling_pos hpart hpeak
  · rename_i hrelease
    constructor
    · intro hfits _
      exact hfits
    · intro hfits
      exact hfits (not_lt.mp hrelease)

theorem step_limited_iff (s : Agc) (x : ℚ) : (∀ y ∈ (step s x).2, |y| ≤ limiterCeiling) ↔ ReleaseFits s x := by
  unfold ReleaseFits step
  simp only
  rcases advance_cases s x with ⟨hfilling, hnone⟩ | ⟨hfull, oldest, rest, hbuf, hsome, -⟩
  · rw [hnone]
    constructor
    · intro _ hfull
      exact absurd hfilling (Nat.not_le_of_lt hfull)
    · rintro _ y ⟨⟩
  · have holdest : oldest ∈ (s.takeIn x).lookaheadBuf := by
      rw [hbuf]
      exact List.mem_cons_self
    have hiff := output_le_iff (s.takeIn x) holdest
    simp only [hsome, Option.toList_some, List.mem_singleton, forall_eq, hbuf, List.head?_cons, Option.some.injEq,
      forall_eq']
    rw [hiff]
    constructor
    · intro hfits _ hrelease
      exact hfits hrelease
    · intro hfits
      exact hfits (by rw [← hbuf]; exact hfull)

/-! ## Runs -/

theorem step_clipped (s : Agc) (x : ℚ) (h : ∀ y ∈ (step s x).2, |y| ≤ 1) :
    (step s x).1.summary.clippedSamples = s.summary.clippedSamples := by
  unfold step at h ⊢
  rcases advance_cases s x with ⟨-, hnone⟩ | ⟨-, oldest, rest, -, hsome, hunclipped⟩
  · rw [hnone]
    exact takeIn_clipped s x
  · apply hunclipped
    rw [hsome] at h
    exact h _ (List.mem_singleton.mpr rfl)

theorem exec_clipped (s : Agc) (xs : List ℚ) : (∀ y ∈ (exec step s xs).2, |y| ≤ 1) →
    (exec step s xs).1.summary.clippedSamples = s.summary.clippedSamples := by
  apply exec_invariant fun (t : Agc) log => (∀ y ∈ log, |y| ≤ 1) → t.summary.clippedSamples = s.summary.clippedSamples
  · intro t log x hlog hall
    rw [List.forall_mem_append] at hall
    exact (step_clipped t x hall.2).trans (hlog hall.1)
  · intro _
    rfl

theorem limited_iff (s : Agc) (xs : List ℚ) :
    Limited s xs ↔ Along (fun s x => some (step s x).1) ReleaseFits s xs := by
  rw [← along_congr step_limited_iff, ← forall_log_iff]
  constructor
  · rintro ⟨hall, -⟩
    exact hall
  · intro hall
    exact ⟨hall, exec_clipped s xs fun y hy => (hall y hy).trans limiterCeiling_le_one⟩

/-- The gain reduction is released when it keeps all samples in the buffer under the ceiling as it is. -/
theorem releases_iff (s : Agc) (x : ℚ) : (s.takeIn x).lookaheadGr ≤ (s.takeIn x).grReq ↔
    ∀ v ∈ s.lookaheadBuf ++ [x], |v| * s.nextGain x * s.lookaheadGr ≤ limiterCeiling := by
  obtain ⟨-, hbuf, hgr⟩ := takeIn_keeps s x
  have hgain : 0 < s.nextGain x := by
    rw [← takeIn_gain]
    exact (s.takeIn x).gain_pos
  have hscale : 0 < s.nextGain x * s.lookaheadGr := mul_pos hgain s.gr_pos
  have hpeak : 0 ≤ peak (s.lookaheadBuf ++ [x]) :=
    (abs_nonneg x).trans (abs_le_peak (List.mem_append_right _ (List.mem_singleton.mpr rfl)))
  have hall : (s.takeIn x).lookaheadGr ≤ (s.takeIn x).grReq ↔
      peak (s.lookaheadBuf ++ [x]) * s.nextGain x * s.lookaheadGr ≤ limiterCeiling := by
    rw [grReq, takeIn_gain, hbuf, ← hgr]
    exact (mul_le_iff limiterCeiling_pos (mul_nonneg hpeak hgain.le) (s.takeIn x).gr_le_one).symm
  rw [hall, mul_assoc, ← le_div_iff₀ hscale]
  constructor
  · intro hle v hv
    rw [mul_assoc, ← le_div_iff₀ hscale]
    exact (abs_le_peak hv).trans hle
  · intro hle
    apply peak_le (div_nonneg limiterCeiling_pos.le hscale.le)
    intro v hv
    rw [le_div_iff₀ hscale, ← mul_assoc]
    exact hle v hv

/-- A release leaves the gain reduction too high only for a sample that is over the ceiling without it. -/
theorem releaseFits_of_holds {s : Agc} {x : ℚ} (h : HoldsOldest s x) : ReleaseFits s x := by
  intro hfull hrelease oldest holdest
  obtain ⟨-, hbuf, -⟩ := takeIn_keeps s x
  rw [takeIn_gain]
  by_cases hover : limiterCeiling < |oldest| * s.nextGain x
  · have hwas : lookaheadSamples ≤ s.lookaheadBuf.length := by
      rw [hbuf, List.length_append, List.length_singleton] at hfull
      exact Nat.le_of_lt_succ hfull
    have hhead : s.lookaheadBuf.head? = some oldest := by
      rw [hbuf] at holdest
      cases hwindow : s.lookaheadBuf with
      | nil =>
        rw [hwindow] at hwas
        exact absurd hwas (by decide)
      | cons first rest =>
        rw [hwindow] at holdest
        exact holdest
    obtain ⟨v, hv, hattack⟩ := h hwas oldest hhead hover
    exact absurd ((releases_iff s x).mp hrelease v hv) (not_le.mpr hattack)
  · rw [required, if_neg hover]
    exact toward_le _ (s.takeIn x).gr_le_one (le_refl 1)

/-- From a fresh or a reset state, the limiter keeps its ceiling as long as no step releases the gain reduction while
it emits a sample that needs one. -/
theorem limiter_bound (coefficients : AgcCoefficients) (s : Agc) (xs : List ℚ) :
    (Along (fun s x => some (step s x).1) HoldsOldest (new coefficients) xs → Limited (new coefficients) xs) ∧
      (Along (fun s x => some (step s x).1) HoldsOldest s.reset xs → Limited s.reset xs) := by
  have hlimited (t : Agc) (h : Along (fun s x => some (step s x).1) HoldsOldest t xs) : Limited t xs :=
    (limited_iff t xs).mpr (along_mono (fun _ _ hholds => releaseFits_of_holds hholds) h)
  exact ⟨hlimited (new coefficients), hlimited s.reset⟩

/-- Target 0 dBFS and no gain above it. -/
def unityGain : AgcCoefficients where
  target := 1
  maxGain := 1
  noiseGate := 1 / 316
  attackAlpha := ⟨1 / 8, by norm_num, by norm_num⟩
  releaseAlpha := ⟨1 / 960, by norm_num, by norm_num⟩
  lookaheadReleaseAlpha := ⟨1 / 400, by norm_num, by norm_num⟩
  target_pos := by norm_num
  maxGain_pos := by norm_num

/-- A full-scale click is brought down to the ceiling in the step that emits it. -/
theorem limiter_bound_click :
    (exec step (new unityGain) (1 :: .replicate 17 0)).2 = [limiterCeiling, 0] ∧
      Limited (new unityGain) (1 :: .replicate 17 0) := by
  have holds : Along (fun s x => some (step s x).1) HoldsOldest (new unityGain)
    (1 :: .replicate 17 0) := by decide +kernel
  exact ⟨by decide +kernel, (limiter_bound unityGain (new unityGain) _).1 holds⟩

/-- Target 0 dBFS with an attack of 0 ms; the others near 120 ms, 50 ms, 18 dB and -50 dBFS. -/
def fullScaleTarget : AgcCoefficients where
  target := 1
  maxGain := 8
  noiseGate := 1 / 316
  attackAlpha := ⟨1, by norm_num, by norm_num⟩
  releaseAlpha := ⟨1 / 960, by norm_num, by norm_num⟩
  lookaheadReleaseAlpha := ⟨1 / 400, by norm_num, by norm_num⟩
  target_pos := by norm_num
  maxGain_pos := by norm_num

/-- The second of two full-scale samples passes the ceiling. -/
theorem limiter_overshoots :
    ¬ ∀ (coefficients : AgcCoefficients) (xs : List ℚ), (∀ x ∈ xs, |x| ≤ 1) → Limited (new coefficients) xs := by
  intro hall
  obtain ⟨hlimited, -⟩ := hall fullScaleTarget (.replicate 18 (-1)) (by decide +kernel)
  have hover : ∃ y ∈ (exec step (new fullScaleTarget) (.replicate 18 (-1))).2, limiterCeiling < |y| := by decide +kernel
  obtain ⟨y, hy, hpassed⟩ := hover
  exact absurd (hlimited y hy) (not_le.mpr hpassed)

/-- A release that finds the oldest sample right at the ceiling, as the step after an attack may, takes it past. -/
theorem release_passes {s : Agc} {x oldest : ℚ} (hfull : lookaheadSamples ≤ s.lookaheadBuf.length)
    (hhead : s.lookaheadBuf.head? = some oldest) (hheld : |oldest| * s.nextGain x * s.lookaheadGr = limiterCeiling)
    (hrelease : ∀ v ∈ s.lookaheadBuf ++ [x], |v| * s.nextGain x * s.lookaheadGr ≤ limiterCeiling)
    (hreduced : s.lookaheadGr < 1) : ∃ y ∈ (step s x).2, limiterCeiling < |y| := by
  by_contra hnone
  push Not at hnone
  have hfits := (step_limited_iff s x).mp hnone
  obtain ⟨-, hbuf, hgr⟩ := takeIn_keeps s x
  have hgain : 0 < s.nextGain x := by
    rw [← takeIn_gain]
    exact (s.takeIn x).gain_pos
  have hfull' : lookaheadSamples < (s.takeIn x).lookaheadBuf.length := by
    rw [hbuf, List.length_append]
    exact Nat.lt_succ_of_le hfull
  have hhead' : (s.takeIn x).lookaheadBuf.head? = some oldest := by
    rw [hbuf, List.head?_append, hhead]
    rfl
  have hbound := hfits hfull' ((releases_iff s x).mpr hrelease) oldest hhead'
  rw [hgr, takeIn_gain] at hbound
  have hpart : 0 ≤ |oldest| * s.nextGain x := mul_nonneg (abs_nonneg oldest) hgain.le
  have hunder := (mul_le_iff limiterCeiling_pos hpart (toward_le _ s.gr_le_one (le_refl 1))).mpr hbound
  have hpos : 0 < |oldest| * s.nextGain x := by
    apply (mul_pos_iff_of_pos_right s.gr_pos).mp
    rw [hheld]
    exact limiterCeiling_pos
  have hraised := mul_lt_mul_of_pos_left (lt_toward (s.takeIn x).lookaheadReleaseAlpha hreduced) hpos
  rw [hheld] at hraised
  exact absurd hunder (not_le.mpr hraised)

/-! ## How far past the ceiling -/

/-- The gain never leaves the larger of unity and its cap. -/
theorem takeIn_gain_le (s : Agc) (x : ℚ) {b : ℚ} (hgain : s.gain ≤ b) (hcap : s.maxGain ≤ b) :
    (s.takeIn x).gain ≤ b := by
  unfold takeIn recordGain followGain
  simp only
  split
  · exact toward_le _ hgain ((min_le_right _ _).trans hcap)
  · exact hgain

theorem advance_keeps (s : Agc) (x : ℚ) :
    (s.advance x).1.toAgcCoefficients = s.toAgcCoefficients ∧ (s.advance x).1.gain = (s.takeIn x).gain ∧
      ∀ v ∈ (s.advance x).1.lookaheadBuf, v ∈ (s.takeIn x).lookaheadBuf := by
  obtain ⟨hcoefficients, -, -⟩ := takeIn_keeps s x
  rw [← hcoefficients]
  unfold advance
  simp only
  generalize s.takeIn x = t
  split
  · exact ⟨rfl, rfl, fun v hv => hv⟩
  · obtain ⟨hbuf, hgain, -, -, hsame⟩ := limit_keeps t
    rw [← hbuf, ← hgain, ← hsame]
    generalize t.reduceGain.recordReduction = limited
    cases hwindow : limited.lookaheadBuf with
    | nil =>
      refine ⟨rfl, rfl, ?_⟩
      intro v hv
      rw [← hwindow]
      exact hv
    | cons oldest rest => exact ⟨rfl, rfl, fun v hv => List.mem_cons_of_mem oldest hv⟩

/-- The ceiling, and the release's share of what the largest gain is above it. -/
def overshoot (coefficients : AgcCoefficients) : ℚ :=
  (1 - coefficients.lookaheadReleaseAlpha.value) * limiterCeiling +
    coefficients.lookaheadReleaseAlpha.value * max 1 coefficients.maxGain

structure Driven (coefficients : AgcCoefficients) (s : Agc) : Prop where
  same : s.toAgcCoefficients = coefficients
  gain_le : s.gain ≤ max 1 coefficients.maxGain
  inRange : ∀ v ∈ s.lookaheadBuf, |v| ≤ 1

theorem limiterCeiling_le_max (m : ℚ) : limiterCeiling ≤ max 1 m := limiterCeiling_le_one.trans (le_max_left 1 m)

theorem driven_new (coefficients : AgcCoefficients) : Driven coefficients (new coefficients) := by
  refine ⟨rfl, le_max_left _ _, ?_⟩
  rintro v ⟨⟩

theorem driven_reset (s : Agc) : Driven s.toAgcCoefficients s.reset := by
  refine ⟨rfl, le_max_left _ _, ?_⟩
  rintro v ⟨⟩

theorem le_overshoot (coefficients : AgcCoefficients) : limiterCeiling ≤ overshoot coefficients := by
  have hshare := mul_le_mul_of_nonneg_left
    (limiterCeiling_le_max coefficients.maxGain) coefficients.lookaheadReleaseAlpha.pos.le
  unfold overshoot
  linarith

theorem Driven.takeIn {coefficients : AgcCoefficients} {s : Agc} (h : Driven coefficients s) {x : ℚ} (hx : |x| ≤ 1) :
    Driven coefficients (s.takeIn x) := by
  obtain ⟨hsame, hbuf, -⟩ := takeIn_keeps s x
  refine ⟨hsame.trans h.same, ?_, ?_⟩
  · apply takeIn_gain_le s x h.gain_le
    rw [h.same]
    exact le_max_right _ _
  · rw [hbuf, List.forall_mem_append, List.forall_mem_singleton]
    exact ⟨h.inRange, hx⟩

theorem Driven.advance {coefficients : AgcCoefficients} {s : Agc} (h : Driven coefficients s) {x : ℚ} (hx : |x| ≤ 1) :
    Driven coefficients (s.advance x).1 := by
  obtain ⟨hsame, hgain, hbuf⟩ := advance_keeps s x
  have htaken := h.takeIn hx
  refine ⟨hsame.trans h.same, ?_, ?_⟩
  · rw [hgain]
    exact htaken.gain_le
  · intro v hv
    exact htaken.inRange v (hbuf v hv)

theorem Driven.output_le {coefficients : AgcCoefficients} {s : Agc} (h : Driven coefficients s) {oldest : ℚ}
    (hmem : oldest ∈ s.lookaheadBuf) : |oldest * s.gain * s.reduceGain.lookaheadGr| ≤ overshoot coefficients := by
  have hpart : 0 ≤ |oldest| * s.gain := mul_nonneg (abs_nonneg oldest) s.gain_pos.le
  have hpeak : |oldest| * s.gain ≤ peak s.lookaheadBuf * s.gain :=
    mul_le_mul_of_nonneg_right (abs_le_peak hmem) s.gain_pos.le
  by_cases hattack : s.grReq < s.lookaheadGr
  · apply ((output_le_iff s hmem).mpr _).trans (le_overshoot coefficients)
    intro hrelease
    exact absurd hattack (not_lt.mpr hrelease)
  · have hheld : s.lookaheadGr ≤ required limiterCeiling (|oldest| * s.gain) :=
      (not_lt.mp hattack).trans (required_anti limiterCeiling_pos hpart hpeak)
    have hloud : |oldest| * s.gain ≤ max 1 coefficients.maxGain :=
      (mul_le_of_le_one_left s.gain_pos.le (h.inRange oldest hmem)).trans h.gain_le
    have hreleased := mul_toward_one_le s.lookaheadReleaseAlpha limiterCeiling_pos hpart hheld
    have hshare := mul_le_mul_of_nonneg_left (max_le hloud (limiterCeiling_le_max coefficients.maxGain))
      coefficients.lookaheadReleaseAlpha.pos.le
    rw [abs_mul, abs_mul, abs_of_pos s.gain_pos, abs_of_pos s.reduceGain.gr_pos, reduceGain_gr, if_neg hattack]
    rw [h.same] at hreleased ⊢
    unfold overshoot
    linarith

theorem limiter_overshoot {coefficients : AgcCoefficients} {s : Agc} (h : Driven coefficients s) {xs : List ℚ}
    (hxs : ∀ x ∈ xs, |x| ≤ 1) : ∀ y ∈ (exec step s xs).2, |y| ≤ overshoot coefficients := by
  have hnothing : ∀ y ∈ ([] : List ℚ), |y| ≤ overshoot coefficients := by
    rintro y ⟨⟩
  have hkept (t : Agc) (log : List ℚ) (x : ℚ)
      (hinv : Driven coefficients t ∧ ∀ y ∈ log, |y| ≤ overshoot coefficients) (hx : |x| ≤ 1) :
      Driven coefficients (step t x).1 ∧ ∀ y ∈ log ++ (step t x).2, |y| ≤ overshoot coefficients := by
    obtain ⟨hdriven, hlog⟩ := hinv
    refine ⟨hdriven.advance hx, ?_⟩
    rw [List.forall_mem_append]
    refine ⟨hlog, ?_⟩
    unfold step
    rcases advance_cases t x with ⟨-, hnone⟩ | ⟨-, oldest, rest, hbuf, hsome, -⟩
    · rw [hnone]
      rintro y ⟨⟩
    · rw [hsome]
      intro y hy
      rw [List.mem_singleton.mp hy]
      apply (hdriven.takeIn hx).output_le
      rw [hbuf]
      exact List.mem_cons_self
  exact (exec_invariant_along _ hkept ⟨h, hnothing⟩ (along_of_mem hxs s)).2

theorem unclipped_of_slow {coefficients : AgcCoefficients} {s : Agc} (h : Driven coefficients s) {xs : List ℚ}
    (hxs : ∀ x ∈ xs, |x| ≤ 1) (hslow : overshoot coefficients ≤ 1) :
    (exec step s xs).1.summary.clippedSamples = s.summary.clippedSamples := by
  apply exec_clipped
  intro y hy
  exact (limiter_overshoot h hxs y hy).trans hslow

/-- A slow release under a low cap never comes to the clamp, from a fresh or a reset state. -/
theorem clamp_never_fires (coefficients : AgcCoefficients) (s : Agc) {xs : List ℚ} (hxs : ∀ x ∈ xs, |x| ≤ 1) :
    (overshoot coefficients ≤ 1 → (exec step (new coefficients) xs).1.summary.clippedSamples = 0) ∧
      (overshoot s.toAgcCoefficients ≤ 1 →
        (exec step s.reset xs).1.summary.clippedSamples = s.summary.clippedSamples) :=
  ⟨unclipped_of_slow (driven_new coefficients) hxs, unclipped_of_slow (driven_reset s) hxs⟩

end DmrBridge.Agc
