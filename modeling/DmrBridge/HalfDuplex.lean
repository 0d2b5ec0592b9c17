import DmrBridge.RxBracket

/-!
# Half duplex

An open outgoing call keeps the receive side still, and an incoming call keeps the send side
still until the timeout after its end.
-/

open Run

namespace DmrBridge

variable {σ φ : Type}

/-! ## What may not happen -/

/-- A frame to FM, metadata or the start of an incoming call. -/
def RxOutput : Output → Prop
  | .audio _ | .metadata _ | .stats (.callStart .dmrToFm ..) => True
  | _ => False

def IsDmrd : Output → Prop
  | .voice .. | .control _ => True
  | _ => False

/-- A DMRD packet or the start of an outgoing call. -/
def TxOutput (o : Output) : Prop := IsDmrd o ∨ ∃ src dst slot, o = .stats (.callStart .fmToDmr src dst slot)

/-- Whether an outgoing call is open after an output. -/
def txNext (isOpen : Bool) : Output → Bool
  | .stats (.callStart .fmToDmr ..) => true
  | .stats (.callEnd .fmToDmr _) => false
  | _ => isOpen

/-- Nothing of the receive side in the log while an outgoing call is open. -/
def ExclusiveTx : Bool → List Output → Prop
  | _, [] => True
  | isOpen, o :: log => (isOpen = true → ¬ RxOutput o) ∧ ExclusiveTx (txNext isOpen o) log

/-- Where a run stands between the start of an incoming call and the timeout after its end. -/
inductive Window where
  | closed
  | inCall
  | ended
  deriving DecidableEq

def windowNext (w : Window) (ev : PttEvent) (outs : List Output) : Window :=
  match (outs.filterMap boundaryOf).getLast? with
  | some .start => .inCall
  | some .stop => .ended
  | none => if ev = .timeout ∧ w = .ended then .closed else w

/-- Nothing of the send side from the start of an incoming call until its window closes. -/
def ExclusiveRx : Window → List (PttEvent × List Output) → Prop
  | _, [] => True
  | w, (ev, outs) :: history =>
    (w ≠ .closed ∨ .start ∈ outs.filterMap boundaryOf → ∀ o ∈ outs, ¬ TxOutput o) ∧
      ExclusiveRx (windowNext w ev outs) history

def recorded (P : Params σ φ) (m : Machine σ φ) (e : Env × PttEvent) :
    Machine σ φ × List (PttEvent × List Output) :=
  ((turn P m e).1, [(e.2, (turn P m e).2)])

structure HalfDuplex (P : Params σ φ) (m : Machine σ φ) (evs : List (Env × PttEvent)) : Prop where
  tx : ExclusiveTx false (exec (turn P) m evs).2
  /-- A packet from the network changes nothing while an outgoing call is open. -/
  txDmrd : ∀ pre env pkt post, evs = pre ++ (env, .dmrd pkt) :: post →
    (exec (turn P) m pre).2.foldl txNext false = true →
    turn P (exec (turn P) m pre).1 (env, .dmrd pkt) = ((exec (turn P) m pre).1, [])
  rx : ExclusiveRx .closed (exec (recorded P) m evs).2
  dmrToFm : P.config.gateway = .dmrToFm → ∀ o ∈ (exec (turn P) m evs).2, ¬ IsDmrd o
  fmToDmr : P.config.gateway = .fmToDmr → ∀ o ∈ (exec (turn P) m evs).2, audioOf o = none

/-! ## Outgoing calls exclude incoming ones -/

theorem exclusiveTx_append (b : Bool) (l₁ l₂ : List Output) :
    ExclusiveTx b (l₁ ++ l₂) ↔ ExclusiveTx b l₁ ∧ ExclusiveTx (l₁.foldl txNext b) l₂ := by
  induction l₁ generalizing b with
  | nil => simp [ExclusiveTx]
  | cons o l₁ ih => simp [ExclusiveTx, ih, and_assoc]

theorem not_rxOutput_of_dir {o : Output} (h : o.dir = .fmToDmr) : ¬ RxOutput o := by
  intro hrx
  match o with
  | .stats (.callStart d ..) => cases h; exact hrx
  | .audio _ | .metadata _ => cases h

theorem exclusiveTx_of_send {outs : List Output} (b : Bool) (h : ∀ o ∈ outs, o.dir = .fmToDmr) :
    ExclusiveTx b outs := by
  induction outs generalizing b with
  | nil => trivial
  | cons o outs ih =>
    exact ⟨fun _ => not_rxOutput_of_dir (h o List.mem_cons_self),
      ih _ fun o' ho' => h o' (List.mem_cons_of_mem o ho')⟩

theorem txNext_of_receive {o : Output} (b : Bool) (h : o.dir = .dmrToFm) : txNext b o = b := by
  match o with
  | .stats (.callStart d ..) | .stats (.callEnd d _) => cases h; rfl
  | .stats (.voiceFrame ..) | .stats (.drop _) | .audio _ | .metadata _ => rfl

theorem foldl_txNext_receive {outs : List Output} (b : Bool) (h : ∀ o ∈ outs, o.dir = .dmrToFm) :
    outs.foldl txNext b = b := by
  induction outs generalizing b with
  | nil => rfl
  | cons o outs ih =>
    rw [List.foldl_cons, txNext_of_receive b (h o List.mem_cons_self)]
    exact ih b fun o' ho' => h o' (List.mem_cons_of_mem o ho')

theorem exclusiveTx_of_receive {outs : List Output} (h : ∀ o ∈ outs, o.dir = .dmrToFm) :
    ExclusiveTx false outs := by
  induction outs with
  | nil => trivial
  | cons o outs ih =>
    refine ⟨by simp, ?_⟩
    rw [txNext_of_receive false (h o List.mem_cons_self)]
    exact ih fun o' ho' => h o' (List.mem_cons_of_mem o ho')

theorem foldl_txNext_const {outs : List Output} (h : ∀ o ∈ outs, ∀ b, txNext b o = b) (b : Bool) :
    outs.foldl txNext b = b := by
  induction outs generalizing b with
  | nil => rfl
  | cons o outs ih =>
    rw [List.foldl_cons, h o List.mem_cons_self b]
    exact ih (fun o' ho' => h o' (List.mem_cons_of_mem o ho')) b

theorem txNext_burst {P : Params σ φ} {env : Env} {c : Codec σ φ} {tx tx' : TxCall} {outs : List Output}
    (h : BurstMove P env c tx tx' outs) (b : Bool) : outs.foldl txNext b = b := by
  refine foldl_txNext_const (fun o ho b => ?_) b
  have hdrop (o : Output) (ho : o ∈ dropBurst .fmToDmr) (b : Bool) : txNext b o = b := by
    rw [List.eq_of_mem_replicate ho]
    rfl
  cases h with
  | failed => exact hdrop o ho b
  | sent ambe pkt =>
    unfold trySendVoiceDmrd at ho
    split at ho <;> rcases List.mem_cons.mp ho with rfl | ho
    · rfl
    · exact hdrop o ho b
    · rfl
    · obtain ⟨i, -, rfl⟩ := List.mem_map.mp ho
      rfl

theorem txNext_flush {P : Params σ φ} {env : Env} {c : Codec σ φ} {tx tx' : TxCall} {outs : List Output}
    (h : FlushMove P env c tx tx' outs) (b : Bool) : outs.foldl txNext b = b := by
  cases h with
  | empty => rfl
  | burst _ h => exact txNext_burst h b

theorem exclusiveTx_step {P : Params σ φ} {env : Env} {c : Codec σ φ} {ev : PttEvent} {s s' : PttState}
    {outs : List Output} (h : TxMove P env c ev s s' outs) :
    ExclusiveTx s.isTx outs ∧ outs.foldl txNext s.isTx = s'.isTx := by
  cases h with
  | receive hs hs' houts =>
    rw [hs, hs']
    exact ⟨exclusiveTx_of_receive houts, foldl_txNext_receive false houts⟩
  | keep => exact ⟨trivial, rfl⟩
  | buffer => exact ⟨trivial, rfl⟩
  | start => exact ⟨⟨by simp [PttState.isTx], by simp [RxOutput], trivial⟩, rfl⟩
  | burst _ _ _ _ h => exact ⟨exclusiveTx_of_send _ (dir_burstMove h), txNext_burst h _⟩
  | finish _ hflush =>
    refine ⟨(exclusiveTx_append _ _ _).mpr ⟨exclusiveTx_of_send _ (dir_flushMove hflush), ?_⟩, ?_⟩
    · simp [ExclusiveTx, RxOutput]
    · rw [List.foldl_append, txNext_flush hflush]
      rfl
  | reset => exact ⟨by simp [ExclusiveTx, RxOutput], rfl⟩

theorem exclusiveTx_run (P : Params σ φ) (vocoder : σ) (filter : Option φ) (evs : List (Env × PttEvent)) :
    ExclusiveTx false (exec (turn P) (newMachine vocoder filter) evs).2 ∧
      (exec (turn P) (newMachine vocoder filter) evs).2.foldl txNext false =
        (exec (turn P) (newMachine vocoder filter) evs).1.state.isTx := by
  refine exec_invariant
    (fun (m : Machine σ φ) log => ExclusiveTx false log ∧ log.foldl txNext false = m.state.isTx)
    (fun m log e h => ?_) ⟨trivial, rfl⟩ evs
  obtain ⟨hexcl, hopen⟩ := exclusiveTx_step (handle_move P m e.1 e.2)
  rw [← h.2] at hexcl hopen
  exact ⟨(exclusiveTx_append _ _ _).mpr ⟨h.1, hexcl⟩, by rw [List.foldl_append]; exact hopen⟩

/-! ## Incoming calls exclude outgoing ones -/

def windowOf : PttState → Window
  | .rx _ => .inCall
  | .rxHang _ => .ended
  | _ => .closed

theorem windowOf_closed {s : PttState} (h : s.rxSide = false) : windowOf s = .closed := by
  cases s with
  | idle | tx => rfl
  | rx | rxHang => cases h

theorem voiceOutput_dir {sid : UInt32} {o : Output} (h : VoiceOutput sid o) : o.dir = .dmrToFm := by
  match o with
  | .audio _ | .metadata _ => rfl
  | .stats (.voiceFrame d _) | .stats (.drop d) => cases d <;> first | rfl | exact h.elim
  | .stats (.callStart ..) | .stats (.callEnd ..) => exact h.elim

theorem not_txOutput_of_dir {o : Output} (h : o.dir = .dmrToFm) : ¬ TxOutput o := by
  rintro (hdmrd | ⟨src, dst, slot, rfl⟩)
  · match o with
    | .voice .. | .control _ => cases h
  · cases h

theorem rxMove_dir {P : Params σ φ} {env : Env} {ev : PttEvent} {s s' : PttState} {outs : List Output}
    (h : RxMove P env ev s s' outs) (hs : s.rxSide = true ∨ s'.rxSide = true) : ∀ o ∈ outs, o.dir = .dmrToFm := by
  intro o ho
  cases h with
  | send hs0 hs1 => simp [hs0, hs1] at hs
  | quiet | hangExpired | clobber => cases ho
  | header =>
    rcases List.mem_append.mp ho with ho | ho
    · exact dir_emitCallMetadata P _ o ho
    · rw [List.mem_singleton.mp ho]
      rfl
  | voice _ _ _ _ hframes =>
    rcases List.mem_append.mp ho with ho | ho
    · exact dir_boundaryOutputs P _ _ o ho
    · exact voiceOutput_dir (hframes o ho)
  | terminator | streamTimeout | shutdown =>
    simp only [List.mem_cons, List.not_mem_nil, or_false] at ho
    rcases ho with rfl | rfl | rfl <;> rfl
  | hangShutdown =>
    rw [List.mem_singleton.mp ho]
    rfl

theorem voice_boundaries (P : Params σ φ) (env : Env) (s : PttState) {pkt : Dmrd} {frames : List Output}
    (hframes : ∀ o ∈ frames, VoiceOutput pkt.streamId o) :
    ((boundaryOutputs P pkt (enterVoice s pkt env.now) ++ frames).filterMap boundaryOf).getLast? = some .start ∨
      (∃ call, s = .rx call) ∧
        (boundaryOutputs P pkt (enterVoice s pkt env.now) ++ frames).filterMap boundaryOf = [] := by
  rw [List.filterMap_append, voiceOutputs_boundaries hframes, List.append_nil, boundaryOutputs_boundaries]
  cases s with
  | idle | rxHang dl | tx tx => exact .inl rfl
  | rx call =>
    by_cases hsame : call.streamId = pkt.streamId
    · exact .inr ⟨⟨call, rfl⟩, by simp [enterVoice, hsame]⟩
    · exact .inl (by simp [enterVoice, hsame])

theorem windowNext_step {P : Params σ φ} {env : Env} {ev : PttEvent} {s s' : PttState} {outs : List Output}
    (h : RxMove P env ev s s' outs) (hcontrol : ∀ c, ev ≠ .control c) (hshutdown : ev ≠ .shutdown) :
    windowNext (windowOf s) ev outs = windowOf s' := by
  cases h with
  | send hs hs' houts =>
    rw [windowOf_closed hs, windowOf_closed hs', windowNext, boundaries_of_dir houts]
    simp
  | quiet _ htimeout =>
    by_cases hev : ev = .timeout
    · rw [windowOf_closed (htimeout hev)]
      simp [windowNext]
    · simp [windowNext, hev]
  | header =>
    rw [windowNext, List.filterMap_append, (emitCallMetadata_silent P _).1]
    rfl
  | voice _ _ _ _ hframes =>
    rcases voice_boundaries P env s hframes with hlast | ⟨⟨call, rfl⟩, hnone⟩
    · rw [windowNext, hlast]
      rfl
    · rw [windowNext, hnone]
      simp [windowOf]
  | terminator | streamTimeout => rfl
  | hangExpired => rfl
  | shutdown | hangShutdown => exact absurd rfl hshutdown
  | clobber => exact absurd rfl (hcontrol _)

/-- What is sent in an open window, or with the start that opens one, goes to FM. -/
theorem exclusiveRx_step {P : Params σ φ} {env : Env} {ev : PttEvent} {s s' : PttState} {outs : List Output}
    (h : RxMove P env ev s s' outs) (hw : windowOf s ≠ .closed ∨ .start ∈ outs.filterMap boundaryOf) :
    ∀ o ∈ outs, ¬ TxOutput o := by
  by_cases hs : s.rxSide = true ∨ s'.rxSide = true
  · exact fun o ho => not_txOutput_of_dir (rxMove_dir h hs o ho)
  · have hs0 : s.rxSide = false := by simpa using (not_or.mp hs).1
    rcases hw with hw | hw
    · exact absurd (windowOf_closed hs0) hw
    · cases h with
      | send _ _ houts => rw [boundaries_of_dir houts] at hw; cases hw
      | header | voice | terminator | streamTimeout => simp [PttState.rxSide] at hs
      | quiet | hangExpired | clobber => cases hw
      | shutdown | hangShutdown => simp [PttState.rxSide] at hs

theorem exclusiveRx_run (P : Params σ φ) (m : Machine σ φ) (evs : List (Env × PttEvent)) (fin : Option Env)
    (hevs : ∀ e ∈ evs, (∀ c, e.2 ≠ .control c) ∧ e.2 ≠ .shutdown) :
    ExclusiveRx (windowOf m.state)
      (exec (recorded P) m (evs ++ (fin.map fun env => (env, PttEvent.shutdown)).toList)).2 := by
  induction evs generalizing m with
  | nil =>
    cases fin with
    | none => trivial
    | some env => exact ⟨exclusiveRx_step (handle_rxMove P m env .shutdown), trivial⟩
  | cons e evs ih =>
    have hmove := handle_rxMove P m e.1 e.2
    obtain ⟨hcontrol, hshutdown⟩ := hevs e List.mem_cons_self
    refine ⟨exclusiveRx_step hmove, ?_⟩
    have hnext := windowNext_step hmove hcontrol hshutdown
    have hrest := ih (turn P m e).1 fun e' he' => hevs e' (List.mem_cons_of_mem e he')
    rw [turn, ← hnext] at hrest
    exact hrest

/-! ## One-way gateways -/

theorem dmrToFm_step {P : Params σ φ} {env : Env} {c : Codec σ φ} {ev : PttEvent} {s s' : PttState}
    {outs : List Output} (h : TxMove P env c ev s s' outs) (hgw : P.config.gateway = .dmrToFm)
    (hs : s.isTx = false) : s'.isTx = false ∧ ∀ o ∈ outs, ¬ IsDmrd o := by
  cases h with
  | receive _ hs' houts => exact ⟨hs', fun o ho hd => not_txOutput_of_dir (houts o ho) (.inl hd)⟩
  | start hgw' => exact absurd hgw hgw'
  | _ => cases hs

theorem fmToDmr_step {P : Params σ φ} {env : Env} {ev : PttEvent} {s s' : PttState} {outs : List Output}
    (h : RxMove P env ev s s' outs) (hgw : P.config.gateway = .fmToDmr) (hs : s.rxSide = false) :
    s'.rxSide = false ∧ ∀ o ∈ outs, audioOf o = none := by
  cases h with
  | send _ hs' houts =>
    refine ⟨hs', fun o ho => ?_⟩
    have := audio_of_dir houts
    rw [List.filterMap_eq_nil_iff] at this
    exact this o ho
  | quiet => exact ⟨hs, by simp⟩
  | header hgw' | voice hgw' | terminator hgw' => exact absurd hgw hgw'
  | streamTimeout | shutdown | hangExpired | hangShutdown => cases hs
  | clobber hs' => rw [hs] at hs'; cases hs'

theorem dmrToFm_run (P : Params σ φ) (vocoder : σ) (filter : Option φ) (evs : List (Env × PttEvent))
    (hgw : P.config.gateway = .dmrToFm) :
    ∀ o ∈ (exec (turn P) (newMachine vocoder filter) evs).2, ¬ IsDmrd o := by
  refine (exec_invariant
    (fun (m : Machine σ φ) log => m.state.isTx = false ∧ ∀ o ∈ log, ¬ IsDmrd o)
    (fun m log e h => ?_) ⟨rfl, by simp⟩ evs).2
  obtain ⟨hstate, houts⟩ := dmrToFm_step (handle_move P m e.1 e.2) hgw h.1
  exact ⟨hstate, fun o ho => (List.mem_append.mp ho).elim (h.2 o) (houts o)⟩

theorem fmToDmr_run (P : Params σ φ) (vocoder : σ) (filter : Option φ) (evs : List (Env × PttEvent))
    (hgw : P.config.gateway = .fmToDmr) :
    ∀ o ∈ (exec (turn P) (newMachine vocoder filter) evs).2, audioOf o = none := by
  refine (exec_invariant
    (fun (m : Machine σ φ) log => m.state.rxSide = false ∧ ∀ o ∈ log, audioOf o = none)
    (fun m log e h => ?_) ⟨rfl, by simp⟩ evs).2
  obtain ⟨hstate, houts⟩ := fmToDmr_step (handle_rxMove P m e.1 e.2) hgw h.1
  exact ⟨hstate, fun o ho => (List.mem_append.mp ho).elim (h.2 o) (houts o)⟩

/-! ## The whole -/

/-- Packets, audio and timeouts from `Idle` on, and perhaps a shutdown at the end. -/
theorem half_duplex (P : Params σ φ) (vocoder : σ) (filter : Option φ) (evs : List (Env × PttEvent))
    (fin : Option Env) (hevs : ∀ e ∈ evs, (∀ c, e.2 ≠ .control c) ∧ e.2 ≠ .shutdown) :
    HalfDuplex P (newMachine vocoder filter) (evs ++ (fin.map fun env => (env, PttEvent.shutdown)).toList) where
  tx := (exclusiveTx_run P vocoder filter _).1
  txDmrd := by
    intro pre env pkt post _ hopen
    rw [(exclusiveTx_run P vocoder filter pre).2] at hopen
    exact onDmrd_of_tx P _ env pkt hopen
  rx := exclusiveRx_run P (newMachine vocoder filter) evs fin hevs
  dmrToFm := dmrToFm_run P vocoder filter _
  fmToDmr := fmToDmr_run P vocoder filter _

/-- An outgoing call that a packet does not disturb, then an incoming one that audio does not. -/
theorem half_duplex_sample :
    HalfDuplex sampleParams (newMachine () none)
      ([(sampleEnv 0 3, .audio ⟨true, some silence, none⟩), (sampleEnv 1 0, .dmrd (samplePacket .voice 0 7)),
        (sampleEnv 2 0, .audio ⟨false, none, none⟩), (sampleEnv 3 0, .dmrd (samplePacket .voice 0 7)),
        (sampleEnv 4 4, .audio ⟨true, some silence, none⟩), (sampleEnv 500 0, .timeout)] ++
        ((some (sampleEnv 600 0)).map fun env => (env, PttEvent.shutdown)).toList) :=
  half_duplex sampleParams () none _ _ (by simp)

end DmrBridge
