import DmrBridge.Rx
import DmrBridge.Lib.Run

/-!
# The loop of the voice task

`voice_task` against the clock. A poll is one way out of its `select!`: what is ready, when the loop went in
and when it came out. The timer is late by less than `lag`.
-/

open Run

namespace DmrBridge

variable {σ φ : Type}

inductive Ready (α : Type) where
  | pending
  | item (a : α)
  | closed

structure Poll where
  /-- The reading behind `deadline()`. -/
  entered : Instant
  now : Instant
  cancelled : Bool
  control : Ready ControlEvent
  fired : Bool
  dmrd : Ready Dmrd
  audio : Ready AudioFrame
  /-- For the handler, if there is one. -/
  env : Env

inductive Branch where
  | wait
  | event (ev : PttEvent)
  | leave

/-- `biased`: the first branch that is ready. -/
def selectBranch (cancelled : Bool) (p : Poll) : Branch :=
  if cancelled then .leave
  else
    match p.control with
    | .item event => .event (.control event)
    | .closed => .leave
    | .pending =>
      if p.fired then .event .timeout
      else
        match p.dmrd with
        | .item pkt => .event (.dmrd pkt)
        | .closed => .leave
        | .pending =>
          match p.audio with
          | .item frame => .event (.audio frame)
          | .closed => .leave
          | .pending => .wait

structure VoiceLoop (σ φ : Type) where
  machine : Machine σ φ
  stopped : Bool

namespace VoiceLoop

def start (vocoder : σ) (filter : Option φ) : VoiceLoop σ φ := ⟨newMachine vocoder filter, false⟩

/-- The machine trips the token itself when the vocoder panics. -/
def iterate (P : Params σ φ) (s : VoiceLoop σ φ) (p : Poll) : VoiceLoop σ φ × List Output :=
  if s.stopped then (s, [])
  else
    let m : Machine σ φ := ⟨s.machine.state, s.machine.codec.observe p.cancelled⟩
    match selectBranch m.codec.cancelled p with
    | .wait => (⟨m, false⟩, [])
    | .event ev => (⟨(handle P m p.env ev).1, false⟩, (handle P m p.env ev).2)
    | .leave => (⟨(onShutdown P m p.env).1, true⟩, (onShutdown P m p.env).2)

def next (P : Params σ φ) (s : VoiceLoop σ φ) (p : Poll) : Option (VoiceLoop σ φ) := some (iterate P s p).1

end VoiceLoop

/-! ## The timer -/

/-- What the runtime promises of a poll. -/
structure Punctual (config : VoiceConfig) (lag : Duration) (state : PttState) (p : Poll) : Prop where
  entered : p.entered ≤ p.now
  handler : p.now ≤ p.env.now
  early : p.fired = true → deadline config p.entered state ≤ p.now
  late : p.fired = false → p.now < deadline config p.entered state + lag

instance decidablePunctual (config : VoiceConfig) (lag : Duration) (state : PttState) (p : Poll) :
    Decidable (Punctual config lag state p) :=
  decidable_of_iff (p.entered ≤ p.now ∧ p.now ≤ p.env.now ∧ (p.fired = true → deadline config p.entered state ≤ p.now) ∧
      (p.fired = false → p.now < deadline config p.entered state + lag))
    ⟨fun h => ⟨h.1, h.2.1, h.2.2.1, h.2.2.2⟩, fun h => ⟨h.1, h.2, h.3, h.4⟩⟩

/-- Each turn of the loop comes after the handler of the one before. -/
def Ordered (polls : List Poll) : Prop := polls.Pairwise fun p q => p.env.now ≤ q.entered

/-! ## What a handler does to the state -/

inductive StateMove (config : VoiceConfig) (env : Env) (ev : PttEvent) (s : PttState) : PttState → Prop where
  | same (hev : ev ≠ .timeout ∧ (∀ event, ev ≠ .control event) ∨ s = .idle ∨
      ∃ tx, s = .tx tx ∧ env.now < tx.started + config.txTimeout) : StateMove config env ev s s
  /-- More audio of the call. -/
  | more {frame : AudioFrame} {tx tx' : TxCall} (hs : s = .tx tx) (hev : ev = .audio frame)
      (hstarted : tx'.started = tx.started) : StateMove config env ev s (.tx tx')
  | finish {tx : TxCall} (hs : s = .tx tx) : StateMove config env ev s .idle
  | key {frame : AudioFrame} {tx : TxCall} (hs : s = .idle) (hev : ev = .audio frame) (hkey : frame.keyup = true)
      (hstarted : tx.started = env.now) : StateMove config env ev s (.tx tx)
  | enter {pkt : Dmrd} {call : RxCall} (hev : ev = .dmrd pkt) (hstream : call.streamId = pkt.streamId)
      (hvoice : call.lastVoice = env.now) : StateMove config env ev s (.rx call)
  | hang {call : RxCall} (hs : s = .rx call) : StateMove config env ev s (.rxHang (env.now + config.hangTime))
  | expired {dl : Instant} (hs : s = .rxHang dl) (hev : ev = .timeout) : StateMove config env ev s .idle
  | reset {event : ControlEvent} (hev : ev = .control event) : StateMove config env ev s .idle
  | shutdown (hev : ev = .shutdown) : StateMove config env ev s .idle

theorem started_burstMove {P : Params σ φ} {env : Env} {c : Codec σ φ} {tx tx' : TxCall} {outs : List Output}
    (h : BurstMove P env c tx tx' outs) : tx'.started = tx.started := by
  cases h with
  | failed | sent => rfl

theorem enterVoice_call (s : PttState) (pkt : Dmrd) (now : Instant) :
    (enterVoice s pkt now).call.streamId = pkt.streamId ∧ (enterVoice s pkt now).call.lastVoice = now := by
  cases s with
  | idle | rxHang | tx => exact ⟨rfl, rfl⟩
  | rx call =>
    by_cases h : call.streamId = pkt.streamId
    · rw [enterVoice_same h]
      exact ⟨h, rfl⟩
    · simp [enterVoice, h, newRxCall]

theorem endTx_idle (P : Params σ φ) (m : Machine σ φ) (env : Env) (tx : TxCall) (reason : TerminationReason) :
    (endTx P m env tx reason).1.state = .idle := by
  obtain ⟨term, d, -, -, hend⟩ := endTx_spec P m env tx reason
  rw [hend]

theorem onTimeout_stateMove (P : Params σ φ) (m : Machine σ φ) (env : Env) :
    StateMove P.config env .timeout m.state (onTimeout P m env).1.state := by
  unfold onTimeout
  cases hs : m.state with
  | rx call => exact .hang rfl
  | rxHang dl => exact .expired rfl rfl
  | tx tx =>
    dsimp only
    split
    · rw [endTx_idle]
      exact .finish rfl
    · rename_i hearly
      rw [hs]
      exact .same (.inr (.inr ⟨tx, rfl, Nat.not_le.mp hearly⟩))
  | idle =>
    dsimp only
    rw [hs]
    exact .same (.inr (.inl rfl))

theorem stateMove_of_txMove {P : Params σ φ} {env : Env} {c : Codec σ φ} {ev : PttEvent} {s s' : PttState}
    {outs : List Output} (h : TxMove P env c ev s s' outs) (hs : s.rxSide = false) (hs' : s'.rxSide = false)
    (htimeout : ev ≠ .timeout) (hcontrol : ∀ event, ev ≠ .control event) : StateMove P.config env ev s s' := by
  cases h with
  | receive htx htx' =>
    cases s with
    | idle =>
      cases s' with
      | idle => exact .same (.inr (.inl rfl))
      | rx | rxHang => cases hs'
      | tx => cases htx'
    | rx | rxHang => cases hs
    | tx => cases htx
  | start hgw hkey => exact .key rfl rfl hkey rfl
  | keep => exact .same (.inl ⟨htimeout, hcontrol⟩)
  | buffer hkey => exact .more rfl rfl rfl
  | burst hgw hkey hframe hlen hburst => exact .more rfl rfl (started_burstMove hburst :)
  | finish => exact .finish rfl
  | reset => exact .finish rfl

theorem stateMove_of_rxMove {P : Params σ φ} {env : Env} {c : Codec σ φ} {ev : PttEvent} {s s' : PttState}
    {outs : List Output} (h : RxMove P env ev s s' outs) (htx : TxMove P env c ev s s' outs) (htimeout : ev ≠ .timeout)
    (hcontrol : ∀ event, ev ≠ .control event) : StateMove P.config env ev s s' := by
  cases h with
  | send hs hs' => exact stateMove_of_txMove htx hs hs' htimeout hcontrol
  | quiet => exact .same (.inl ⟨htimeout, hcontrol⟩)
  | header => exact .enter rfl rfl rfl
  | @voice pkt _ frames =>
    obtain ⟨hstream, hvoice⟩ := enterVoice_call s pkt env.now
    exact .enter rfl hstream hvoice
  | terminator => exact .hang rfl
  | streamTimeout | hangExpired => exact absurd rfl htimeout
  | shutdown | hangShutdown => exact .shutdown rfl
  | clobber => exact .reset rfl

theorem handle_stateMove (P : Params σ φ) (m : Machine σ φ) (env : Env) (ev : PttEvent) :
    StateMove P.config env ev m.state (handle P m env ev).1.state := by
  cases ev with
  | timeout => exact onTimeout_stateMove P m env
  | control event =>
    have hidle : (handle P m env (.control event)).1.state = .idle := by
      cases event
      cases hs : m.state <;> simp [handle, onControl, onNetworkReset, hs]
    rw [hidle]
    exact .reset rfl
  | dmrd | audio | shutdown =>
    exact stateMove_of_rxMove (handle_rxMove P m env _) (handle_move P m env _) (by simp) (by simp)

/-! ## Calls and their deadlines -/

theorem deadline_of_ne_idle {config : VoiceConfig} {state : PttState} (h : state ≠ .idle) (now now' : Instant) :
    deadline config now state = deadline config now' state := by
  cases state with
  | idle => exact absurd rfl h
  | rx | rxHang | tx => rfl

/-- Where the deadline of an open call comes from: a poll of the run. -/
def Timed (config : VoiceConfig) (polls : List Poll) : PttState → Prop
  | .idle => True
  | .tx call => ∃ p ∈ polls, call.started = p.env.now ∧ ∃ frame, p.audio = .item frame ∧ frame.keyup = true
  | .rx call => ∃ p ∈ polls, call.lastVoice = p.env.now ∧ ∃ pkt, p.dmrd = .item pkt ∧ pkt.streamId = call.streamId
  | .rxHang dl => ∃ p ∈ polls, dl = p.env.now + config.hangTime

theorem Timed.mono {config : VoiceConfig} {polls : List Poll} {state : PttState} (h : Timed config polls state)
    (p : Poll) :
    Timed config (polls ++ [p]) state := by
  cases state with
  | idle => trivial
  | tx | rx | rxHang =>
    obtain ⟨q, hq, hrest⟩ := h
    exact ⟨q, List.mem_append_left _ hq, hrest⟩

/-- What the select has seen when it hands an event to the machine. -/
inductive Selected (p : Poll) : PttEvent → Prop where
  | control {event : ControlEvent} (hitem : p.control = .item event) : Selected p (.control event)
  | timeout (hfired : p.fired = true) : Selected p .timeout
  | dmrd {pkt : Dmrd} (hfired : p.fired = false) (hitem : p.dmrd = .item pkt) : Selected p (.dmrd pkt)
  | audio {frame : AudioFrame} (hfired : p.fired = false) (hitem : p.audio = .item frame) : Selected p (.audio frame)

theorem selected_of_event {cancelled : Bool} {p : Poll} {ev : PttEvent} (h : selectBranch cancelled p = .event ev) :
    Selected p ev := by
  unfold selectBranch at h
  split at h
  · cases h
  · split at h
    · rename_i event hitem
      cases h
      exact .control hitem
    · cases h
    · split at h
      · rename_i hfired
        cases h
        exact .timeout hfired
      · rename_i hfired
        split at h
        · rename_i pkt hitem
          cases h
          exact .dmrd (by simpa using hfired) hitem
        · cases h
        · split at h
          · rename_i frame hitem
            cases h
            exact .audio (by simpa using hfired) hitem
          · cases h
          · cases h

theorem fired_of_wait {cancelled : Bool} {p : Poll} (h : selectBranch cancelled p = .wait) : p.fired = false := by
  unfold selectBranch at h
  split at h
  · cases h
  · split at h
    · cases h
    · cases h
    · split at h
      · cases h
      · simpa using ‹¬ p.fired = true›

namespace VoiceLoop

variable {P : Params σ φ} {s t : VoiceLoop σ φ} {p : Poll}

theorem onShutdown_idle (P : Params σ φ) (m : Machine σ φ) (env : Env) : (onShutdown P m env).1.state = .idle := by
  unfold onShutdown
  cases hs : m.state with
  | tx tx => exact endTx_idle P m env tx .shutdown
  | rx | rxHang => rfl
  | idle => exact hs

inductive Turned (P : Params σ φ) (s : VoiceLoop σ φ) (p : Poll) (t : VoiceLoop σ φ) : Prop where
  | ended (hstopped : s.stopped = true) (ht : t = s)
  | wait (hfired : p.fired = false) (ht : t.stopped = false) (hstate : t.machine.state = s.machine.state)
  | event (ev : PttEvent) (hev : Selected p ev) (ht : t.stopped = false)
      (hmove : StateMove P.config p.env ev s.machine.state t.machine.state)
  | leave (ht : t.stopped = true) (hstate : t.machine.state = .idle)

theorem next_turned (h : next P s p = some t) : Turned P s p t := by
  cases h
  unfold iterate
  split
  · rename_i hstopped
    exact .ended hstopped rfl
  · dsimp only
    split
    · rename_i hbranch
      exact .wait (fired_of_wait hbranch) rfl rfl
    · rename_i ev hbranch
      exact .event ev (selected_of_event hbranch) rfl
        (handle_stateMove P ⟨s.machine.state, s.machine.codec.observe p.cancelled⟩ p.env ev)
    · exact .leave rfl (onShutdown_idle P _ p.env)

/-! ## Calls end in time -/

/-- The deadline of what is open, from the polls of the run, and that the last of them came before it. -/
structure InTime (P : Params σ φ) (lag : Duration) (polls : List Poll) (s : VoiceLoop σ φ) : Prop where
  stopped : s.stopped = true → s.machine.state = .idle
  timed : Timed P.config polls s.machine.state
  open_ : ∀ q ∈ polls.getLast?, s.machine.state ≠ .idle → q.now < deadline P.config q.now s.machine.state + lag

def OnTime (P : Params σ φ) (lag : Duration) (s : VoiceLoop σ φ) (p : Poll) : Prop :=
  Punctual P.config lag s.machine.state p

instance decidableOnTime (P : Params σ φ) (lag : Duration) (s : VoiceLoop σ φ) (p : Poll) :
    Decidable (OnTime P lag s p) :=
  decidablePunctual P.config lag s.machine.state p

theorem inTime_of_idle {lag : Duration} {polls : List Poll} (h : s.machine.state = .idle) : InTime P lag polls s :=
  ⟨fun _ => h, by rw [h]; trivial, fun _ _ hne => absurd h hne⟩

theorem inTime_snoc {lag : Duration} {polls : List Poll} (hrunning : s.stopped = false)
    (htimed : Timed P.config (polls ++ [p]) s.machine.state)
    (hopen : s.machine.state ≠ .idle → p.now < deadline P.config p.now s.machine.state + lag) :
    InTime P lag (polls ++ [p]) s := by
  refine ⟨fun h => (by rw [hrunning] at h; cases h), htimed, fun q hq hne => ?_⟩
  rw [List.getLast?_concat] at hq
  cases hq
  exact hopen hne

/-- A deadline that counts from the handler is ahead of the poll. -/
theorem lt_of_handler {lag now late : Duration} {handler : Instant} (hlag : 0 < lag) (h : now ≤ handler) :
    now < handler + late + lag := by
  have hle : now ≤ handler + late := Nat.le_trans h (Nat.le_add_right ..)
  exact Nat.lt_of_le_of_lt hle (Nat.lt_add_of_pos_right hlag)

theorem inTime_move {lag : Duration} {polls : List Poll} {ev : PttEvent} (hlag : 0 < lag) (h : InTime P lag polls s)
    (hpunctual : OnTime P lag s p) (hev : Selected p ev) (hrunning : t.stopped = false)
    (hmove : StateMove P.config p.env ev s.machine.state t.machine.state) : InTime P lag (polls ++ [p]) t := by
  have hlate (hfired : p.fired = false) (hne : s.machine.state ≠ .idle) :
      p.now < deadline P.config p.now s.machine.state + lag := by
    rw [deadline_of_ne_idle hne p.now p.entered]
    exact hpunctual.late hfired
  have hhere : p ∈ polls ++ [p] := List.mem_append_right _ (List.mem_singleton.mpr rfl)
  generalize hs : s.machine.state = state, ht : t.machine.state = state' at hmove
  cases hmove with
  | same hwhy =>
    apply inTime_snoc hrunning
    · rw [ht, ← hs]
      exact h.timed.mono p
    · rw [ht, ← hs]
      intro hne
      rcases hwhy with ⟨htimeout, hcontrol⟩ | hidle | ⟨tx, htx, hearly⟩
      · cases hev with
        | control => exact absurd rfl (hcontrol _)
        | timeout => exact absurd rfl htimeout
        | dmrd hfired | audio hfired => exact hlate hfired hne
      · exact absurd (hs.trans hidle) hne
      · rw [hs, htx]
        exact Nat.lt_of_lt_of_le (Nat.lt_of_le_of_lt hpunctual.handler hearly) (Nat.le_add_right ..)
  | @more frame tx tx' htx haudio hstarted =>
    subst haudio
    have hopen : s.machine.state ≠ .idle := by rw [hs, htx]; simp
    have hsame : deadline P.config p.now t.machine.state = deadline P.config p.now s.machine.state := by
      rw [ht, hs, htx]
      exact congrArg (· + P.config.txTimeout) hstarted
    cases hev with
    | audio hfired =>
      apply inTime_snoc hrunning
      · have htimed := h.timed.mono p
        rw [hs, htx] at htimed
        obtain ⟨q, hq, hstart, hframe⟩ := htimed
        rw [ht]
        exact ⟨q, hq, hstarted.trans hstart, hframe⟩
      · intro _
        rw [hsame]
        exact hlate hfired hopen
  | finish | expired | reset | shutdown => exact inTime_of_idle ht
  | @key frame tx hidle haudio hkey hstarted =>
    subst haudio
    cases hev with
    | audio hfired hitem =>
      apply inTime_snoc hrunning
      · rw [ht]
        exact ⟨p, hhere, hstarted, frame, hitem, hkey⟩
      · rw [ht]
        intro _
        simp only [deadline, hstarted]
        exact lt_of_handler hlag hpunctual.handler
  | @enter pkt call hdmrd hstream hvoice =>
    subst hdmrd
    cases hev with
    | dmrd hfired hitem =>
      apply inTime_snoc hrunning
      · rw [ht]
        exact ⟨p, hhere, hvoice, pkt, hitem, hstream.symm⟩
      · rw [ht]
        intro _
        simp only [deadline, hvoice]
        exact lt_of_handler hlag hpunctual.handler
  | hang =>
    apply inTime_snoc hrunning
    · rw [ht]
      exact ⟨p, hhere, rfl⟩
    · rw [ht]
      intro _
      exact lt_of_handler hlag hpunctual.handler

theorem inTime_step {lag : Duration} {polls : List Poll} (hlag : 0 < lag) (h : InTime P lag polls s)
    (hpunctual : OnTime P lag s p) (hnext : next P s p = some t) : InTime P lag (polls ++ [p]) t := by
  cases next_turned hnext with
  | ended hstopped ht =>
    rw [ht]
    exact inTime_of_idle (h.stopped hstopped)
  | wait hfired ht hstate =>
    apply inTime_snoc ht
    · rw [hstate]
      exact h.timed.mono p
    · intro hne
      rw [hstate] at hne ⊢
      rw [deadline_of_ne_idle hne p.now p.entered]
      exact hpunctual.late hfired
  | event ev hev ht hmove => exact inTime_move hlag h hpunctual hev ht hmove
  | leave ht hstate => exact inTime_of_idle hstate

/-- No call outlives its deadline: at the end of each turn of the loop what is open is younger than `tx_timeout`,
`stream_timeout` or `hang_time` and the lag of the timer, counted from the handler of the poll that set the deadline. -/
theorem calls_in_time (P : Params σ φ) (vocoder : σ) (filter : Option φ) (lag : Duration) (polls : List Poll)
    (s : VoiceLoop σ φ) (hlag : 0 < lag) (hpunctual : Along (next P) (OnTime P lag) (start vocoder filter) polls)
    (hrun : runs (next P) (start vocoder filter) polls = some s) : InTime P lag polls s :=
  runs_invariant_past (fun _ _ _ _ _ h hok hstep => inTime_step hlag h hok hstep) (inTime_of_idle rfl) hpunctual hrun

/-! ## The pause after an incoming call -/

/-- After an incoming call whose hang time ends at `dl`: nothing goes out before. -/
def Paused (dl : Instant) (polls : List Poll) : PttState → Prop
  | .idle => ∃ q ∈ polls, dl ≤ q.env.now
  | .rx _ => True
  | .rxHang dl' => dl ≤ dl'
  | .tx call => dl ≤ call.started ∧ ∃ q ∈ polls, dl ≤ q.env.now

theorem Paused.mono {dl : Instant} {polls : List Poll} {state : PttState} (h : Paused dl polls state) (p : Poll) :
    Paused dl (polls ++ [p]) state := by
  cases state with
  | rx => trivial
  | rxHang => exact h
  | idle =>
    obtain ⟨q, hq, hle⟩ := h
    exact ⟨q, List.mem_append_left _ hq, hle⟩
  | tx =>
    obtain ⟨hstarted, q, hq, hle⟩ := h
    exact ⟨hstarted, q, List.mem_append_left _ hq, hle⟩

theorem paused_move {lag : Duration} {first : Poll} {polls : List Poll} {ev : PttEvent}
    (h : Paused (first.env.now + P.config.hangTime) polls s.machine.state)
    (horder : ∀ q ∈ first :: polls, q.env.now ≤ p.entered) (hpunctual : OnTime P lag s p)
    (hquiet : ∀ event, p.control ≠ .item event) (hev : Selected p ev)
    (hmove : StateMove P.config p.env ev s.machine.state t.machine.state) :
    Paused (first.env.now + P.config.hangTime) (polls ++ [p]) t.machine.state := by
  have hhere : p ∈ polls ++ [p] := List.mem_append_right _ (List.mem_singleton.mpr rfl)
  have hnow : p.entered ≤ p.env.now := Nat.le_trans hpunctual.entered hpunctual.handler
  have hearly := hpunctual.early
  generalize s.machine.state = state, t.machine.state = state' at hmove h hearly ⊢
  cases hmove with
  | same => exact h.mono p
  | more htx haudio hstarted =>
    subst htx
    obtain ⟨hpause, q, hq, hle⟩ := h
    exact ⟨hstarted ▸ hpause, q, List.mem_append_left _ hq, hle⟩
  | finish htx =>
    subst htx
    obtain ⟨-, q, hq, hle⟩ := h
    exact ⟨q, List.mem_append_left _ hq, hle⟩
  | key hidle haudio hkey hstarted =>
    subst hidle
    obtain ⟨q, hq, hle⟩ := h
    have hpast : first.env.now + P.config.hangTime ≤ p.env.now :=
      Nat.le_trans hle (Nat.le_trans (horder q (List.mem_cons_of_mem _ hq)) hnow)
    exact ⟨hstarted ▸ hpast, p, hhere, hpast⟩
  | enter => trivial
  | hang =>
    have hlater : first.env.now ≤ p.env.now := Nat.le_trans (horder first List.mem_cons_self) hnow
    exact Nat.add_le_add_right hlater _
  | expired hhang htimeout =>
    subst hhang htimeout
    cases hev with
    | timeout hfired => exact ⟨p, hhere, Nat.le_trans h (Nat.le_trans (hearly hfired) hpunctual.handler)⟩
  | reset hcontrol =>
    subst hcontrol
    cases hev with
    | control hitem => exact absurd hitem (hquiet _)
  | shutdown hshutdown =>
    subst hshutdown
    cases hev

/-- Running and paused, or stopped and idle. -/
structure Holds (dl : Instant) (polls : List Poll) (s : VoiceLoop σ φ) : Prop where
  stopped : s.stopped = true → s.machine.state = .idle
  paused : s.stopped = false → Paused dl polls s.machine.state

theorem holds_step {lag : Duration} {first : Poll} {polls : List Poll}
    (h : Holds (first.env.now + P.config.hangTime) polls s) (horder : ∀ q ∈ first :: polls, q.env.now ≤ p.entered)
    (hpunctual : OnTime P lag s p) (hquiet : ∀ event, p.control ≠ .item event) (hnext : next P s p = some t) :
    Holds (first.env.now + P.config.hangTime) (polls ++ [p]) t := by
  cases hstopped : s.stopped with
  | true =>
    have hsame : t = s := by
      cases hnext
      simp [iterate, hstopped]
    rw [hsame]
    exact ⟨h.stopped, fun hs => by rw [hstopped] at hs; cases hs⟩
  | false =>
    cases next_turned hnext with
    | ended hover =>
      rw [hstopped] at hover
      cases hover
    | wait hfired ht hstate =>
      refine ⟨fun hs => (by rw [ht] at hs; cases hs), fun _ => ?_⟩
      rw [hstate]
      exact (h.paused hstopped).mono p
    | event ev hev ht hmove =>
      exact ⟨fun hs => (by rw [ht] at hs; cases hs),
        fun _ => paused_move (h.paused hstopped) horder hpunctual hquiet hev hmove⟩
    | leave ht hstate => exact ⟨fun _ => hstate, fun hs => by rw [ht] at hs; cases hs⟩

/-- The poll that ends an incoming call sets the hang time. -/
theorem hang_start {call : RxCall} {dl : Instant} (hs : s.machine.state = .rx call) (ht : t.machine.state = .rxHang dl)
    (hnext : next P s p = some t) : t.stopped = false ∧ dl = p.env.now + P.config.hangTime := by
  cases next_turned hnext with
  | ended hstopped hsame =>
    rw [hsame, hs] at ht
    cases ht
  | wait hfired hrunning hstate =>
    rw [hstate, hs] at ht
    cases ht
  | event ev hev hrunning hmove =>
    refine ⟨hrunning, ?_⟩
    rw [hs, ht] at hmove
    cases hmove with
    | hang => rfl
  | leave hstopped hstate =>
    rw [hstate] at ht
    cases ht

/-- After an incoming call has ended no outgoing one starts within the hang time, whatever comes from either side,
unless a new session of the network resets the machine. -/
theorem hang_time (P : Params σ φ) (lag : Duration) (first : Poll) (mid : List Poll) (s t u : VoiceLoop σ φ)
    (call : RxCall) (dl : Instant) (tx : TxCall) (hcall : s.machine.state = .rx call) (hend : next P s first = some t)
    (hhang : t.machine.state = .rxHang dl) (hmid : runs (next P) t mid = some u)
    (htx : u.machine.state = .tx tx) (horder : Ordered (first :: mid))
    (hpunctual : Along (next P) (OnTime P lag) t mid) (hquiet : ∀ q ∈ mid, ∀ event, q.control ≠ .item event) :
    first.env.now + P.config.hangTime ≤ tx.started := by
  obtain ⟨hrunning, hdl⟩ := hang_start hcall hhang hend
  have hstart : Holds (first.env.now + P.config.hangTime) [] t := by
    refine ⟨fun hstopped => (by rw [hrunning] at hstopped; cases hstopped), fun _ => ?_⟩
    rw [hhang, hdl]
    exact Nat.le_refl _
  have hholds : Holds (first.env.now + P.config.hangTime) mid u := by
    refine runs_invariant_past ?_ hstart hpunctual hmid
    intro past v q w hpast hv hok hstep
    obtain ⟨rest, hrest⟩ := hpast
    have hq : q ∈ mid := by simp [← hrest]
    have hbefore : ∀ r ∈ first :: past, r.env.now ≤ q.entered := by
      have hsplit : Ordered ((first :: past) ++ q :: rest) := by simpa [← hrest] using horder
      intro r hr
      exact (List.pairwise_append.mp hsplit).2.2 r hr q List.mem_cons_self
    exact holds_step hv hbefore hok (hquiet q hq) hstep
  cases hstopped : u.stopped with
  | true =>
    rw [hholds.stopped hstopped] at htx
    cases htx
  | false =>
    have hpaused := hholds.paused hstopped
    rw [htx] at hpaused
    exact hpaused.1

/-- A poll that comes out at once, with what it hands to the machine. -/
def samplePoll (now : Instant) (fired : Bool) (dmrd : Ready Dmrd) (audio : Ready AudioFrame) : Poll :=
  { entered := now, now, cancelled := false, control := .pending, fired, dmrd, audio, env := sampleEnv now 0 }

def incoming : List Poll :=
  [samplePoll 10 false (.item (samplePacket .dataSync 1 7)) .pending]

def terminator : Poll := samplePoll 40 false (.item (samplePacket .dataSync 2 7)) .pending

/-- The key is down while the channel hangs, and still after it. -/
def talking : List Poll :=
  [samplePoll 60 false .pending (.item (makeVoiceFrame silence 3)), samplePoll 541 true .pending .pending,
    samplePoll 560 false .pending (.item (makeVoiceFrame silence 3))]

theorem calls_in_time_sample :
    ∃ s, runs (next sampleParams) (start () none) (incoming ++ terminator :: talking) = some s ∧
      s.machine.state.isTx = true ∧ InTime sampleParams 2 (incoming ++ terminator :: talking) s := by
  have hrun : (runs (next sampleParams) (start () none) (incoming ++ terminator :: talking)).any
      (fun s => s.machine.state.isTx) = true := by decide +kernel
  obtain ⟨s, hs, hkeyed⟩ := (Option.any_eq_true ..).mp hrun
  exact ⟨s, hs, hkeyed, calls_in_time sampleParams () none 2 _ s (by decide) (by decide +kernel) hs⟩

theorem hang_time_sample :
    ∃ u tx, runs (next sampleParams) (start () none) (incoming ++ terminator :: talking) = some u ∧
      u.machine.state = .tx tx ∧ 540 ≤ tx.started := by
  let s := (exec (iterate sampleParams) (start () none) incoming).1
  let t := (iterate sampleParams s terminator).1
  have hquiet : ∀ q ∈ talking, ∀ event, q.control ≠ .item event := by
    intro q hq event hitem
    rcases List.mem_cons.mp hq with rfl | hq
    · cases hitem
    · rcases List.mem_pair.mp hq with rfl | rfl <;> cases hitem
  have horder : Ordered (terminator :: talking) := by
    unfold Ordered
    decide
  exact ⟨_, _, rfl, rfl, hang_time sampleParams 2 terminator talking s t _ _ 540 _ rfl rfl rfl rfl rfl horder
    (by decide +kernel) hquiet⟩

end VoiceLoop

end DmrBridge
