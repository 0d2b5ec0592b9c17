import DmrBridge.Rx
import DmrBridge.Lib.Run
import Mathlib.Data.List.Chain

/-!
# The metadata latch

A consumer that holds the last `Call` and lets go of it on `Clear` knows whose call is coming in.
-/

open Run

namespace DmrBridge

variable {σ φ : Type}

/-! ## The consumer -/

def metaEventOf : Output → Option MetaEvent
  | .metadata event => some event
  | _ => none

def metaEvents (log : List Output) : List MetaEvent := log.filterMap metaEventOf

@[simp]
theorem metaEvents_append (log outs : List Output) : metaEvents (log ++ outs) = metaEvents log ++ metaEvents outs :=
  List.filterMap_append

def latch (_ : Option CallMetadata) : MetaEvent → Option CallMetadata
  | .call data => some data
  | .clear => none

def latched (events : List MetaEvent) : Option CallMetadata := events.foldl latch none

/-- The last event decides. -/
theorem latched_concat (events : List MetaEvent) (event : MetaEvent) :
    latched (events ++ [event]) = latch none event := by
  rw [latched, List.foldl_append]
  cases event <;> rfl

/-- No `Clear` after a `Clear`. -/
def SingleClears (events : List MetaEvent) : Prop := events.IsChain fun a b => ¬ (a = .clear ∧ b = .clear)

theorem SingleClears.concat {events : List MetaEvent} {event : MetaEvent} (h : SingleClears events)
    (hlast : event = .clear → events.getLast? ≠ some .clear) : SingleClears (events ++ [event]) := by
  refine List.isChain_append.mpr ⟨h, .singleton event, fun a ha b hb => ?_⟩
  rintro ⟨rfl, rfl⟩
  obtain rfl : event = .clear := by simpa using hb
  exact hlast rfl ha

/-! ## One turn -/

theorem talkgroup_tryFrom_isOk {v : UInt32} (h0 : v ≠ 0) (h : v ≤ max24Bit) : ∃ tg, Talkgroup.tryFrom v = .ok tg :=
  ⟨⟨v, h0, h⟩, by simp [Talkgroup.tryFrom, h0, UInt32.not_lt.mpr h]⟩

/-- A packet of the configured call always names its talker. -/
theorem metaEvents_emitCallMetadata {P : Params σ φ} {pkt : Dmrd} (h : matchesConfig pkt P.config = true) :
    ∃ data, metaEvents (emitCallMetadata P pkt) = [.call data] ∧ data.dmrId = pkt.srcId := by
  obtain ⟨tg, htg⟩ : ∃ tg, Talkgroup.tryFrom pkt.dstId = .ok tg := by
    simp only [matchesConfig, Bool.and_eq_true, decide_eq_true_eq] at h
    obtain ⟨⟨hdst, -⟩, -⟩ := h
    cases hcall : P.config.callType with
    | group =>
      have hdst : pkt.dstId = P.config.talkgroup.asU32 := by simpa [hcall] using hdst
      exact talkgroup_tryFrom_isOk (hdst ▸ P.config.talkgroup.nonzero) (hdst ▸ P.config.talkgroup.range)
    | unit =>
      have hdst : pkt.dstId = P.config.srcId.asU32 := by simpa [hcall] using hdst
      exact talkgroup_tryFrom_isOk (hdst ▸ P.config.srcId.nonzero) (hdst ▸ P.config.srcId.range)
  unfold emitCallMetadata
  rw [htg]
  exact ⟨_, rfl, rfl⟩

/-- What a turn tells the consumer. -/
inductive MetaMove : PttEvent → PttState → PttState → List MetaEvent → Prop where
  | opened {pkt : Dmrd} {s : PttState} {call : RxCall} {data : CallMetadata} (hs : s.rxStream ≠ some pkt.streamId)
      (hcall : call.streamId = pkt.streamId ∧ call.srcId = pkt.srcId) (hdata : data.dmrId = pkt.srcId) :
      MetaMove (.dmrd pkt) s (.rx call) [.call data]
  | keep {ev : PttEvent} {call call' : RxCall} (hcall : call'.streamId = call.streamId ∧ call'.srcId = call.srcId) :
      MetaMove ev (.rx call) (.rx call') []
  | closed {ev : PttEvent} {call : RxCall} {s' : PttState} (hs' : s'.rxStream = none) :
      MetaMove ev (.rx call) s' [.clear]
  | outside {ev : PttEvent} {s s' : PttState} (hs : s.rxStream = none) (hs' : s'.rxStream = none) :
      MetaMove ev s s' []

theorem metaEvents_nil {outs : List Output} (h : ∀ o ∈ outs, metaEventOf o = none) : metaEvents outs = [] :=
  List.filterMap_eq_nil_iff.mpr h

theorem metaEventOf_dir {o : Output} (h : o.dir = .fmToDmr) : metaEventOf o = none := by
  match o with
  | .voice .. | .control _ | .stats _ | .panicked => rfl

theorem metaEventOf_voice {sid : UInt32} {o : Output} (h : VoiceOutput sid o) : metaEventOf o = none := by
  match o with
  | .audio _ | .voice .. | .control _ | .stats _ | .panicked => rfl

theorem metaEvents_boundaryOutputs (P : Params σ φ) (pkt : Dmrd) (e : VoiceEntry) :
    metaEvents (boundaryOutputs P pkt e) = if e.callStart then metaEvents (emitCallMetadata P pkt) else [] := by
  have hdrops (n : Nat) : (List.replicate n (Output.stats (.drop .dmrToFm))).filterMap metaEventOf = [] :=
    metaEvents_nil fun o ho => by rw [List.eq_of_mem_replicate ho]; rfl
  unfold metaEvents
  rcases e with ⟨call, _ | prior, _ | _, gap⟩ <;>
    simp [boundaryOutputs, List.filterMap_cons, hdrops, metaEventOf, rxCallStart, rxCallEnd]

theorem turn_metaMove (P : Params σ φ) (m : Machine σ φ) (e : Env × PttEvent) (hcontrol : ∀ x, e.2 ≠ .control x) :
    MetaMove e.2 m.state (turn P m e).1.state (metaEvents (turn P m e).2) := by
  obtain ⟨env, ev⟩ := e
  have hmove := handle_rxMove P m env ev
  show MetaMove ev m.state (handle P m env ev).1.state (metaEvents (handle P m env ev).2)
  generalize (handle P m env ev).1.state = s', (handle P m env ev).2 = outs at hmove ⊢
  generalize m.state = s at hmove ⊢
  cases hmove with
  | send hs hs' houts =>
    rw [metaEvents_nil fun o ho => metaEventOf_dir (houts o ho)]
    refine .outside ?_ ?_
    · cases s <;> first | rfl | cases hs
    · cases s' <;> first | rfl | cases hs'
  | quiet =>
    cases s' with
    | rx call => exact .keep ⟨rfl, rfl⟩
    | _ => exact .outside rfl rfl
  | header _ hmatch _ _ _ hstream =>
    obtain ⟨data, hdata, hsrc⟩ := metaEvents_emitCallMetadata hmatch
    rw [metaEvents_append, hdata]
    exact .opened hstream ⟨rfl, rfl⟩ hsrc
  | @voice pkt _ frames _ hmatch _ _ hframes =>
    have hframes : metaEvents frames = [] := metaEvents_nil fun o ho => metaEventOf_voice (hframes o ho)
    obtain ⟨data, hdata, hsrc⟩ := metaEvents_emitCallMetadata hmatch
    rw [metaEvents_append, metaEvents_boundaryOutputs, hframes, hdata, List.append_nil]
    by_cases hstream : s.rxStream = some pkt.streamId
    · obtain ⟨call, rfl, hsame⟩ := rxStream_eq_some.mp hstream
      rw [enterVoice_same hsame]
      exact .keep ⟨rfl, rfl⟩
    · rw [enterVoice_new hstream]
      exact .opened hstream ⟨rfl, rfl⟩ hsrc
  | terminator => exact .closed rfl
  | streamTimeout => exact .closed rfl
  | shutdown => exact .closed rfl
  | hangExpired => exact .outside rfl rfl
  | hangShutdown => exact .outside rfl rfl
  | clobber => exact absurd rfl (hcontrol _)

/-! ## Runs -/

def stateAfter (P : Params σ φ) (m : Machine σ φ) (evs : List (Env × PttEvent)) : PttState :=
  (exec (turn P) m evs).1.state

/-- The packet that opened the call now coming in, or switched to it. -/
def OpenedBy (P : Params σ φ) (m : Machine σ φ) (evs : List (Env × PttEvent)) (pkt : Dmrd) : Prop :=
  ∃ pre env post, evs = pre ++ (env, .dmrd pkt) :: post ∧ (stateAfter P m pre).rxStream ≠ some pkt.streamId ∧
    ∀ post', post' <+: post → (stateAfter P m (pre ++ (env, .dmrd pkt) :: post')).rxStream = some pkt.streamId

/-- The consumer's view after the events `events`. -/
structure LatchAgrees (P : Params σ φ) (m : Machine σ φ) (evs : List (Env × PttEvent)) (events : List MetaEvent) :
    Prop where
  rx : ∀ call, stateAfter P m evs = .rx call → ∃ pkt data, OpenedBy P m evs pkt ∧ call.srcId = pkt.srcId ∧
    data.dmrId = pkt.srcId ∧ events.getLast? = some (.call data) ∧ latched events = some data
  other : (∀ call, stateAfter P m evs ≠ .rx call) →
    (events = [] ∨ events.getLast? = some .clear) ∧ latched events = none
  clears : SingleClears events

section
variable {P : Params σ φ} {m : Machine σ φ} {evs : List (Env × PttEvent)} {e : Env × PttEvent} {pkt : Dmrd}

theorem openedBy_concat {env : Env} (hs : (stateAfter P m evs).rxStream ≠ some pkt.streamId)
    (hs' : (stateAfter P m (evs ++ [(env, .dmrd pkt)])).rxStream = some pkt.streamId) :
    OpenedBy P m (evs ++ [(env, .dmrd pkt)]) pkt := by
  refine ⟨evs, env, [], rfl, hs, fun post' hpost' => ?_⟩
  rw [List.prefix_nil.mp hpost']
  exact hs'

theorem OpenedBy.stays (h : OpenedBy P m evs pkt)
    (hs' : (stateAfter P m (evs ++ [e])).rxStream = some pkt.streamId) : OpenedBy P m (evs ++ [e]) pkt := by
  obtain ⟨pre, env, post, rfl, hs, hstays⟩ := h
  refine ⟨pre, env, post ++ [e], by simp, hs, fun post' hpost' => ?_⟩
  rcases List.prefix_concat_iff.mp hpost' with rfl | hpost'
  · simpa using hs'
  · exact hstays post' hpost'

theorem OpenedBy.rxStream (h : OpenedBy P m evs pkt) : (stateAfter P m evs).rxStream = some pkt.streamId := by
  obtain ⟨pre, env, post, rfl, -, hstays⟩ := h
  exact hstays post List.prefix_rfl

end

theorem latchAgrees_step {P : Params σ φ} {m : Machine σ φ} {evs : List (Env × PttEvent)} {e : Env × PttEvent}
    {events : List MetaEvent} (h : LatchAgrees P m evs events) (hcontrol : ∀ x, e.2 ≠ .control x) :
    LatchAgrees P m (evs ++ [e]) (events ++ metaEvents (turn P (exec (turn P) m evs).1 e).2) := by
  have hmove := turn_metaMove P (exec (turn P) m evs).1 e hcontrol
  have hnext : stateAfter P m (evs ++ [e]) = (turn P (exec (turn P) m evs).1 e).1.state := by
    rw [stateAfter, exec_snoc]
  obtain ⟨env, ev⟩ := e
  rw [← hnext] at hmove
  have hbefore : (exec (turn P) m evs).1.state = stateAfter P m evs := rfl
  rw [hbefore] at hmove
  generalize metaEvents (turn P (exec (turn P) m evs).1 (env, ev)).2 = new at hmove ⊢
  generalize hs : stateAfter P m evs = s at hmove
  generalize hs' : stateAfter P m (evs ++ [(env, ev)]) = s' at hmove
  cases hmove with
  | @opened pkt _ call data hother hcall hdata =>
    have hopened : OpenedBy P m (evs ++ [(env, .dmrd pkt)]) pkt := by
      apply openedBy_concat (by rwa [hs])
      rw [hs', PttState.rxStream, hcall.1]
    refine ⟨fun call' hcall' => ?_, fun hnone => absurd hs' (hnone call), h.clears.concat (by simp)⟩
    obtain rfl : call = call' := by simpa [hs'] using hcall'
    exact ⟨pkt, data, hopened, hcall.2, hdata, List.getLast?_concat, latched_concat events _⟩
  | @keep _ call call' hcall =>
    obtain ⟨pkt, data, hopened, hsrc, hdata, hlast, hlatched⟩ := h.rx call hs
    have hstream : call.streamId = pkt.streamId := by
      have hrx := hopened.rxStream
      rw [hs] at hrx
      exact Option.some.inj hrx
    have hstays : OpenedBy P m (evs ++ [(env, ev)]) pkt := by
      apply hopened.stays
      rw [hs', PttState.rxStream, hcall.1, hstream]
    rw [List.append_nil]
    refine ⟨fun call'' hcall'' => ?_, fun hnone => absurd hs' (hnone call'), h.clears⟩
    obtain rfl : call' = call'' := by simpa [hs'] using hcall''
    exact ⟨pkt, data, hstays, hcall.2.trans hsrc, hdata, hlast, hlatched⟩
  | @closed _ call _ hnone =>
    obtain ⟨pkt, data, -, -, -, hlast, -⟩ := h.rx call hs
    refine ⟨fun call' hcall' => ?_, fun _ => ⟨.inr List.getLast?_concat, latched_concat events _⟩, ?_⟩
    · rw [← hs', hcall'] at hnone
      cases hnone
    · exact h.clears.concat fun _ => by simp [hlast]
  | outside hnone hnone' =>
    rw [List.append_nil]
    refine ⟨fun call hcall => ?_, fun _ => h.other fun call hcall => ?_, h.clears⟩
    · rw [← hs', hcall] at hnone'
      cases hnone'
    · rw [← hs, hcall] at hnone
      cases hnone

/-- A header of the stream coming in. -/
def repeatedHeader (s : PttState) (pkt : Dmrd) : Prop :=
  s.rxStream = some pkt.streamId ∧ pkt.frameType = .dataSync ∧ pkt.dtypeVseq = dataTypeVoiceHeader

theorem turn_repeatedHeader {P : Params σ φ} {m : Machine σ φ} {pkt : Dmrd} (h : repeatedHeader m.state pkt)
    (env : Env) : turn P m (env, .dmrd pkt) = (m, []) := by
  obtain ⟨hstream, hft, hdt⟩ := h
  show onDmrd P m env pkt = (m, [])
  unfold onDmrd
  simp [hft, hdt, onHeader, hstream]

/-- The consumer and the machine agree after every event of a run without session resets. -/
theorem metadata_latch (P : Params σ φ) (vocoder : σ) (filter : Option φ) (evs : List (Env × PttEvent))
    (hcontrol : ∀ e ∈ evs, ∀ x, e.2 ≠ .control x) :
    LatchAgrees P (newMachine vocoder filter) evs (metaEvents (exec (turn P) (newMachine vocoder filter) evs).2) ∧
      ∀ env pkt, repeatedHeader (stateAfter P (newMachine vocoder filter) evs) pkt →
        (turn P (exec (turn P) (newMachine vocoder filter) evs).1 (env, .dmrd pkt)).2 = [] := by
  constructor
  · induction evs using List.reverseRecOn with
    | nil =>
      refine ⟨fun call hcall => ?_, fun _ => ⟨.inl rfl, rfl⟩, .nil⟩
      cases hcall
    | append_singleton evs e ih =>
      have hprefix := ih fun e' he' => hcontrol e' (List.mem_append_left _ he')
      rw [exec_snoc, metaEvents_append]
      exact latchAgrees_step hprefix (hcontrol e (by simp))
  · intro env pkt hheader
    rw [turn_repeatedHeader hheader]

/-- Header, terminator, and shutdown in the hang time. -/
def shutdownInHang : List (Env × PttEvent) :=
  [(sampleEnv 0 0, .dmrd (samplePacket .dataSync dataTypeVoiceHeader 7)),
    (sampleEnv 0 0, .dmrd (samplePacket .dataSync dataTypeVoiceTerminator 7)), (sampleEnv 0 0, .shutdown)]

def sampleMetadata : CallMetadata :=
  { dmrId := sampleSrc, tg := sampleConfig.talkgroup, slot := .one, cc := sampleConfig.colorCode
    call := none, name := none }

theorem metadata_latch_shutdownInHang :
    metaEvents (exec (turn sampleParams) (newMachine () none) shutdownInHang).2 = [.call sampleMetadata, .clear] ∧
      LatchAgrees sampleParams (newMachine () none) shutdownInHang
        (metaEvents (exec (turn sampleParams) (newMachine () none) shutdownInHang).2) :=
  ⟨by decide +kernel, (metadata_latch sampleParams () none shutdownInHang (by simp [shutdownInHang])).1⟩

end DmrBridge
