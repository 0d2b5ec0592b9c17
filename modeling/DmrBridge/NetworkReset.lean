import DmrBridge.Rx
import DmrBridge.Lib.Run

/-!
# Session resets

A reset of the Homebrew session is about the outgoing call. `on_network_reset` takes the state
before it looks at it, so outside `Tx` it is transparent only where `Idle` is what it takes.
-/

open Run

namespace DmrBridge

variable {σ φ : Type}

/-- The events that end an incoming call and leave the machine in `RxHang`. -/
def rxEndReason (config : VoiceConfig) (call : RxCall) : PttEvent → Option TerminationReason
  | .dmrd pkt =>
    if config.gateway ≠ .fmToDmr ∧ matchesConfig pkt config ∧ pkt.frameType = .dataSync ∧
        pkt.dtypeVseq = dataTypeVoiceTerminator ∧ pkt.streamId = call.streamId then some .normal
    else none
  | .timeout => some .streamTimeout
  | _ => none

/-- What a reset may do in state `m`: end an outgoing call, and leave everything else alone. -/
structure ResetFrame (P : Params σ φ) (m : Machine σ φ) : Prop where
  quiet : m.state.isTx = false → onControl m .networkReset = (m, [])
  /-- An incoming call still ends with one `Clear`, one `CallEnd` and one unkey, and hangs. -/
  rxEnds : ∀ call env ev reason, m.state = .rx call → rxEndReason P.config call ev = some reason →
    handle P (onControl m .networkReset).1 env ev =
      (⟨.rxHang (env.now + P.config.hangTime), m.codec⟩,
        [.metadata .clear, rxCallEnd reason, .audio (makeUnkeyFrame (some call.streamId))])
  tx : m.state.isTx = true →
    onControl m .networkReset = (⟨.idle, m.codec⟩, [.stats (.callEnd .fmToDmr .networkReset)])

def eraseResets (P : Params σ φ) : Machine σ φ → List (Env × PttEvent) → List (Env × PttEvent)
  | _, [] => []
  | m, e :: evs =>
    if e.2 = .control .networkReset ∧ m.state.isTx = false then eraseResets P m evs
    else e :: eraseResets P (turn P m e).1 evs

/-- Every reset of the run meets `ResetFrame`, and those outside `Tx` might as well not have come. -/
def ResetSafe (P : Params σ φ) (m : Machine σ φ) (evs : List (Env × PttEvent)) : Prop :=
  Along (turnState P) (fun m e => e.2 = .control .networkReset → ResetFrame P m) m evs ∧
    exec (turn P) m (eraseResets P m evs) = exec (turn P) m evs

def NoResetInRx (P : Params σ φ) (m : Machine σ φ) (evs : List (Env × PttEvent)) : Prop :=
  Along (turnState P) (fun m e => e.2 = .control .networkReset → m.state.rxSide = false) m evs

/-! ## One reset -/

theorem onControl_idle (m : Machine σ φ) (h : m.state = .idle) : onControl m .networkReset = (m, []) := by
  obtain ⟨s, c⟩ := m
  cases h
  rfl

theorem onControl_tx (m : Machine σ φ) (h : m.state.isTx = true) :
    onControl m .networkReset = (⟨.idle, m.codec⟩, [.stats (.callEnd .fmToDmr .networkReset)]) := by
  obtain ⟨s, c⟩ := m
  cases s with
  | tx tx => rfl
  | _ => cases h

theorem onControl_rxSide (m : Machine σ φ) (h : m.state.rxSide = true) :
    onControl m .networkReset = (⟨.idle, m.codec⟩, []) := by
  obtain ⟨s, c⟩ := m
  cases s with
  | rx call | rxHang dl => rfl
  | _ => cases h

theorem resetFrame_iff (P : Params σ φ) (m : Machine σ φ) : ResetFrame P m ↔ m.state.rxSide = false := by
  constructor
  · intro h
    by_contra hrx
    rw [Bool.not_eq_false] at hrx
    have htx : m.state.isTx = false := by
      obtain ⟨s, c⟩ := m
      cases s with
      | tx tx => cases hrx
      | _ => rfl
    have hsame := congrArg (fun r => r.1.state.rxSide) ((onControl_rxSide m hrx).symm.trans (h.quiet htx))
    rw [hrx] at hsame
    cases hsame
  · intro h
    refine ⟨fun htx => onControl_idle m ?_, fun call env ev reason hs => ?_, onControl_tx m⟩
    · obtain ⟨s, c⟩ := m
      cases s with
      | idle => rfl
      | tx tx => cases htx
      | _ => cases h
    · rw [hs] at h
      cases h

/-! ## Whole runs -/

theorem erase_exec (P : Params σ φ) (m : Machine σ φ) (evs : List (Env × PttEvent)) (h : NoResetInRx P m evs) :
    exec (turn P) m (eraseResets P m evs) = exec (turn P) m evs := by
  induction evs generalizing m with
  | nil => rfl
  | cons e evs ih =>
    have hnext := ih _ (h.2 _ rfl)
    unfold eraseResets
    split
    · rename_i he
      have hquiet : turn P m e = (m, []) := by
        rw [turn, he.1]
        exact ((resetFrame_iff P m).mpr (h.1 he.1)).quiet he.2
      rw [hquiet] at hnext
      rw [exec, hquiet, hnext]
      rfl
    · rw [exec, exec, hnext]

/-- Resets concern outgoing calls only in exactly the runs where none is handled in `Rx` or `RxHang`. -/
theorem resetSafe_iff (P : Params σ φ) (vocoder : σ) (filter : Option φ) (evs : List (Env × PttEvent)) :
    ResetSafe P (newMachine vocoder filter) evs ↔ NoResetInRx P (newMachine vocoder filter) evs := by
  have hframe : Along (turnState P) (fun m e => e.2 = .control .networkReset → ResetFrame P m) _ evs ↔
      NoResetInRx P (newMachine vocoder filter) evs :=
    along_congr (fun m e => imp_congr_right fun _ => resetFrame_iff P m) _ evs
  exact ⟨fun h => hframe.mp h.1, fun h => ⟨hframe.mpr h, erase_exec P _ evs h⟩⟩

/-- A header, a reset and the terminator: the call goes out without `Clear`, `CallEnd` or unkey. -/
theorem resetSafe_fails_in_rx :
    ¬ ResetSafe sampleParams (newMachine () none)
        [(sampleEnv 0 0, .dmrd (samplePacket .dataSync 1 7)), (sampleEnv 1 0, .control .networkReset)] ∧
      (exec (turn sampleParams) (newMachine () none)
        [(sampleEnv 0 0, .dmrd (samplePacket .dataSync 1 7)), (sampleEnv 1 0, .control .networkReset),
          (sampleEnv 2 0, .dmrd (samplePacket .dataSync 2 7))]).2 =
        emitCallMetadata sampleParams (samplePacket .dataSync 1 7) ++ [rxCallStart (samplePacket .dataSync 1 7)] := by
  constructor
  · intro h
    have hrx := (h.1.2 _ rfl).1 rfl
    have := (resetFrame_iff _ _).mp hrx
    cases this
  · rfl

end DmrBridge
