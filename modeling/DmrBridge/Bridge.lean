import DmrBridge.Outbound
import DmrBridge.RxBracket
import DmrBridge.Lib.Lanes
import DmrBridge.Lib.Run

/-!
# The bridge

`voice_task`, `homebrew_client::run` and `usrp::tx_task`, the queues between them and the token
that they share. An action is one step of one task, so a run is one interleaving of the three.
Sends on a socket succeed. AGC and limiter change samples only and are left out.
-/

open Run

namespace DmrBridge

variable {σ φ : Type}

def dmrdOutDepth : Nat := 64
def audioOutDepth : Nat := 64
def voiceCtlDepth : Nat := 4

inductive SessionPhase where
  | down
  | up
  | closed
  deriving DecidableEq

inductive FmPhase where
  | select
  | pacing (frame : AudioFrame)
  | returned
  deriving DecidableEq

def FmPhase.held : FmPhase → List AudioFrame
  | .pacing frame => [frame]
  | .select | .returned => []

structure Bridge (σ φ : Type) where
  machine : Machine σ φ
  /-- `on_shutdown` has run. -/
  stopping : Bool
  /-- Sends of the last handler that are still to be made. -/
  pending : List Output
  control : List ControlEvent
  /-- Control before voice; `sent` is the socket of the session. -/
  lanes : Lanes DmrdPacket
  session : SessionPhase
  audioOut : List AudioFrame
  fm : FmPhase
  /-- The voice-type packets on the USRP socket. -/
  fmSent : List AudioFrame
  cancelled : Bool
  /-- All packets that the machine has built. -/
  built : List DmrdPacket
  /-- The streams of all calls started, and of those started before the session came up. -/
  started : List UInt32
  earlier : List UInt32

inductive BridgeAction where
  | handle (env : Env) (ev : PttEvent)
  | handleControl (env : Env)
  | shutdown (env : Env)
  | push
  | send
  | lose
  | authenticate
  | close
  | cancel
  | fmTake (paced : Bool)
  | fmWake
  | fmStop

namespace Bridge

/-! ## Steps -/

/-- What `voice_task` receives besides control events. -/
def isInput : PttEvent → Bool
  | .control _ | .shutdown => false
  | _ => true

def isVoice (frame : AudioFrame) : Bool := frame.keyup && frame.samples.isSome

/-- One handler. It reads the token, and a vocoder that panics trips it. -/
def react (P : Params σ φ) (s : Bridge σ φ) (env : Env) (ev : PttEvent) : Bridge σ φ :=
  let (m, outs) := DmrBridge.handle P ⟨s.machine.state, s.machine.codec.observe s.cancelled⟩ env ev
  { s with
    machine := m
    pending := outs
    cancelled := s.cancelled || m.codec.cancelled
    built := s.built ++ packets outs
    started := (opened s.machine.state m.state).toList ++ s.started }

/-- One send. `try_send` finds room or it does not; a send to FM waits for it. -/
def sendOne (s : Bridge σ φ) : Output → Option (Bridge σ φ)
  | .control pkt => some { s with lanes := s.lanes.pushHigh pkt }
  | .voice pkt queued =>
    if queued = decide (s.session ≠ .closed ∧ s.lanes.low.length < dmrdOutDepth) then
      some (if queued then { s with lanes := s.lanes.pushLow pkt } else s)
    else none
  | .audio frame =>
    if s.fm = .returned then some s
    else if s.audioOut.length < audioOutDepth then some { s with audioOut := s.audioOut ++ [frame] }
    else none
  | .metadata _ | .stats _ | .panicked => some s

/-- The select of `voice_task` is biased: the token first, then control events. -/
def takeInput (P : Params σ φ) (s : Bridge σ φ) (env : Env) (ev : PttEvent) : Option (Bridge σ φ) :=
  if isInput ev ∧ s.stopping = false ∧ s.pending = [] ∧ s.cancelled = false ∧ s.control = [] then
    some (react P s env ev)
  else none

def takeControl (P : Params σ φ) (s : Bridge σ φ) (env : Env) : Option (Bridge σ φ) :=
  match s.control with
  | [] => none
  | event :: control =>
    if s.stopping = false ∧ s.pending = [] ∧ s.cancelled = false then
      some { react P s env (.control event) with control }
    else none

/-- The loop ends on the token, or on a closed channel once no control event waits. -/
def shutdown (P : Params σ φ) (s : Bridge σ φ) (env : Env) : Option (Bridge σ φ) :=
  if s.stopping = false ∧ s.pending = [] ∧ (s.cancelled = true ∨ s.control = []) then
    some { react P s env .shutdown with stopping := true }
  else none

def push (s : Bridge σ φ) : Option (Bridge σ φ) :=
  match s.pending with
  | [] => none
  | o :: pending => (sendOne s o).map fun t => { t with pending }

/-- `keepalive_loop` takes a packet. The token comes first. -/
def send (s : Bridge σ φ) : Option (Bridge σ φ) :=
  if s.session = .up ∧ s.cancelled = false then s.lanes.pop.map fun lanes => { s with lanes } else none

def lose (s : Bridge σ φ) : Option (Bridge σ φ) :=
  if s.session = .up ∧ s.cancelled = false then some { s with session := .down } else none

/-- `connect_once` up to its keepalive loop: drains both queues and tells `voice_task`. -/
def authenticate (s : Bridge σ φ) : Option (Bridge σ φ) :=
  if s.session = .down ∧ s.cancelled = false ∧ s.control.length < voiceCtlDepth then
    some { s with
      session := .up
      lanes := .empty
      control := s.control ++ [.networkReset]
      earlier := s.started }
  else none

/-- `keepalive_loop` returns without a look at the queues, and RPTCL is the last packet. -/
def close (s : Bridge σ φ) : Option (Bridge σ φ) :=
  if s.session ≠ .closed ∧ s.cancelled = true then some { s with session := .closed } else none

/-- `tx_task` takes a frame. A voice frame may have to wait for its turn. -/
def fmTake (s : Bridge σ φ) (paced : Bool) : Option (Bridge σ φ) :=
  match s.fm, s.audioOut with
  | .select, frame :: audioOut =>
    if s.cancelled then none
    else if paced ∧ isVoice frame then some { s with fm := .pacing frame, audioOut }
    else some { s with fmSent := s.fmSent ++ [frame], audioOut }
  | _, _ => none

def fmWake (s : Bridge σ φ) : Option (Bridge σ φ) :=
  match s.fm with
  | .pacing frame =>
    if s.cancelled then none else some { s with fm := .select, fmSent := s.fmSent ++ [frame] }
  | _ => none

/-- A frame that waits is lost. -/
def fmStop (s : Bridge σ φ) : Option (Bridge σ φ) :=
  if s.fm ≠ .returned ∧ s.cancelled = true then some { s with fm := .returned } else none

def step (P : Params σ φ) (s : Bridge σ φ) : BridgeAction → Option (Bridge σ φ)
  | .handle env ev => takeInput P s env ev
  | .handleControl env => takeControl P s env
  | .shutdown env => shutdown P s env
  | .push => push s
  | .send => send s
  | .lose => lose s
  | .authenticate => authenticate s
  | .close => close s
  | .cancel => some { s with cancelled := true }
  | .fmTake paced => fmTake s paced
  | .fmWake => fmWake s
  | .fmStop => fmStop s

def start (vocoder : σ) (filter : Option φ) : Bridge σ φ where
  machine := newMachine vocoder filter
  stopping := false
  pending := []
  control := []
  lanes := .empty
  session := .down
  audioOut := []
  fm := .select
  fmSent := []
  cancelled := false
  built := []
  started := []
  earlier := []

/-- In a session, with nothing to do. -/
def connected (vocoder : σ) (filter : Option φ) : Bridge σ φ := { start vocoder filter with session := .up }

/-- A call that starts gets a stream of its own. -/
def NewStream (P : Params σ φ) (s : Bridge σ φ) : BridgeAction → Prop
  | .handle env ev => ∀ sid ∈ opened s.machine.state (react P s env ev).machine.state, sid ∉ s.started
  | _ => True

instance (P : Params σ φ) (s : Bridge σ φ) : ∀ a, Decidable (NewStream P s a)
  | .handle env ev => Option.decidableForallMem (opened s.machine.state (react P s env ev).machine.state)
  | .handleControl _ | .shutdown _ | .push | .send | .lose | .authenticate | .close | .cancel | .fmTake _ | .fmWake
  | .fmStop => .isTrue trivial

/-! ## What a step can do -/

/-- A step of `tx_task`. -/
def ofFm : BridgeAction → Bool
  | .fmTake _ | .fmWake | .fmStop => true
  | _ => false

inductive Move (P : Params σ φ) (s : Bridge σ φ) : BridgeAction → Bridge σ φ → Prop where
  | handle {env : Env} {ev : PttEvent} (hev : isInput ev = true) (hpending : s.pending = [])
      (hcancelled : s.cancelled = false) (hcontrol : s.control = []) : Move P s (.handle env ev) (react P s env ev)
  | handleControl {env : Env} {event : ControlEvent} {control : List ControlEvent} (hpending : s.pending = [])
      (hcancelled : s.cancelled = false) (hcontrol : s.control = event :: control) :
      Move P s (.handleControl env) { react P s env (.control event) with control }
  | shutdown {env : Env} (hpending : s.pending = []) (hend : s.cancelled = true ∨ s.control = []) :
      Move P s (.shutdown env) { react P s env .shutdown with stopping := true }
  | control {pkt : DmrdPacket} {pending : List Output} (hpending : s.pending = .control pkt :: pending) :
      Move P s .push { s with lanes := s.lanes.pushHigh pkt, pending }
  | voice {pkt : DmrdPacket} {pending : List Output} (hpending : s.pending = .voice pkt true :: pending) :
      Move P s .push { s with lanes := s.lanes.pushLow pkt, pending }
  | full {pkt : DmrdPacket} {pending : List Output} (hpending : s.pending = .voice pkt false :: pending) :
      Move P s .push { s with pending }
  /-- A send to FM, an event or a metadata message. -/
  | other {o : Output} {pending : List Output} (audioOut : List AudioFrame) (hpending : s.pending = o :: pending)
      (ho : pushOf o = none) (haudio : s.fm ≠ .returned → audioOut = s.audioOut ++ (audioOf o).toList) :
      Move P s .push { s with audioOut, pending }
  | send {lanes : Lanes DmrdPacket} (hup : s.session = .up) (hcancelled : s.cancelled = false)
      (hpop : s.lanes.pop = some lanes) : Move P s .send { s with lanes }
  | lose (hup : s.session = .up) : Move P s .lose { s with session := .down }
  | authenticate (hdown : s.session = .down) (hcancelled : s.cancelled = false) :
      Move P s .authenticate
        { s with session := .up, lanes := .empty, control := s.control ++ [.networkReset], earlier := s.started }
  | close : Move P s .close { s with session := .closed }
  | cancel : Move P s .cancel { s with cancelled := true }
  | fm {a : BridgeAction} (audioOut : List AudioFrame) (fm : FmPhase) (fmSent : List AudioFrame)
      (ha : ofFm a = true) (hlive : s.fm ≠ .returned) (hcancelled : s.cancelled = true → fmSent = s.fmSent)
      (hflow : fm ≠ .returned → fmSent ++ fm.held ++ audioOut = s.fmSent ++ s.fm.held ++ s.audioOut)
      (hend : fm = .returned → s.cancelled = true) :
      Move P s a { s with audioOut, fm, fmSent }

theorem push_move {P : Params σ φ} {s t : Bridge σ φ} (h : push s = some t) : Move P s .push t := by
  unfold push at h
  split at h
  · cases h
  · rename_i o pending hpending
    obtain ⟨u, hu, rfl⟩ := Option.map_eq_some_iff.mp h
    cases o with
    | control pkt =>
      cases hu
      exact .control hpending
    | voice pkt queued =>
      simp only [sendOne, Option.ite_none_right_eq_some, Option.some.injEq] at hu
      obtain ⟨-, rfl⟩ := hu
      cases queued with
      | true => exact .voice hpending
      | false => exact .full hpending
    | audio frame =>
      simp only [sendOne] at hu
      split at hu
      · rename_i hreturned
        cases hu
        exact .other s.audioOut hpending rfl fun hlive => absurd hreturned hlive
      · simp only [Option.ite_none_right_eq_some, Option.some.injEq] at hu
        obtain ⟨-, rfl⟩ := hu
        exact .other (s.audioOut ++ [frame]) hpending rfl fun _ => rfl
    | metadata event | stats event | panicked =>
      cases hu
      exact .other s.audioOut hpending rfl fun _ => (List.append_nil s.audioOut).symm

theorem fmTake_move {P : Params σ φ} {s t : Bridge σ φ} {paced : Bool} (h : fmTake s paced = some t) :
    Move P s (.fmTake paced) t := by
  unfold fmTake at h
  split at h
  · rename_i frame audioOut hfm haudio
    split at h
    · cases h
    · rename_i hcancelled
      split at h <;> cases h
      · refine .fm audioOut (.pacing frame) s.fmSent rfl (by simp [hfm]) (fun _ => rfl) (fun _ => ?_) (by simp)
        simp [FmPhase.held, hfm, haudio]
      · refine .fm audioOut s.fm (s.fmSent ++ [frame]) rfl (by simp [hfm]) (fun hc => absurd hc hcancelled)
          (fun _ => ?_) (by simp [hfm])
        simp [FmPhase.held, hfm, haudio]
  · cases h

theorem fmWake_move {P : Params σ φ} {s t : Bridge σ φ} (h : fmWake s = some t) : Move P s .fmWake t := by
  unfold fmWake at h
  split at h
  · rename_i frame hfm
    split at h
    · cases h
    · rename_i hcancelled
      cases h
      refine .fm s.audioOut .select (s.fmSent ++ [frame]) rfl (by simp [hfm])
        (fun hc => absurd hc hcancelled) (fun _ => ?_) (by simp)
      simp [FmPhase.held, hfm]
  · cases h

theorem step_move {P : Params σ φ} {s t : Bridge σ φ} {a : BridgeAction} (h : step P s a = some t) : Move P s a t := by
  cases a with
  | handle env ev =>
    simp only [step, takeInput, Option.ite_none_right_eq_some, Option.some.injEq] at h
    obtain ⟨⟨hev, -, hpending, hcancelled, hcontrol⟩, rfl⟩ := h
    exact .handle hev hpending hcancelled hcontrol
  | handleControl env =>
    simp only [step, takeControl] at h
    split at h
    · cases h
    · rename_i event control hcontrol
      simp only [Option.ite_none_right_eq_some, Option.some.injEq] at h
      obtain ⟨⟨-, hpending, hcancelled⟩, rfl⟩ := h
      exact .handleControl hpending hcancelled hcontrol
  | shutdown env =>
    simp only [step, shutdown, Option.ite_none_right_eq_some, Option.some.injEq] at h
    obtain ⟨⟨-, hpending, hend⟩, rfl⟩ := h
    exact .shutdown hpending hend
  | push => exact push_move h
  | send =>
    simp only [step, send, Option.ite_none_right_eq_some, Option.map_eq_some_iff] at h
    obtain ⟨⟨hup, hcancelled⟩, lanes, hpop, rfl⟩ := h
    exact .send hup hcancelled hpop
  | lose =>
    simp only [step, lose, Option.ite_none_right_eq_some, Option.some.injEq] at h
    obtain ⟨⟨hup, -⟩, rfl⟩ := h
    exact .lose hup
  | authenticate =>
    simp only [step, authenticate, Option.ite_none_right_eq_some, Option.some.injEq] at h
    obtain ⟨⟨hdown, hcancelled, -⟩, rfl⟩ := h
    exact .authenticate hdown hcancelled
  | close =>
    simp only [step, close, Option.ite_none_right_eq_some, Option.some.injEq] at h
    obtain ⟨-, rfl⟩ := h
    exact .close
  | cancel =>
    cases h
    exact .cancel
  | fmTake paced => exact fmTake_move h
  | fmWake => exact fmWake_move h
  | fmStop =>
    simp only [step, fmStop, Option.ite_none_right_eq_some, Option.some.injEq] at h
    obtain ⟨⟨hlive, hcancelled⟩, rfl⟩ := h
    exact .fm s.audioOut .returned s.fmSent rfl hlive (fun _ => rfl) (fun hstill => absurd rfl hstill)
      fun _ => hcancelled

/-! ## A small instance -/

def keyed : AudioFrame := ⟨true, some silence, none⟩
def unkeyed : AudioFrame := ⟨false, none, none⟩

/-- A call on stream `sid` with one burst; its packets are on their queues. -/
def oneBurst (sid : UInt32) : List BridgeAction :=
  [.handle (sampleEnv 0 sid) (.audio keyed), .push, .push, .handle (sampleEnv 1 0) (.audio keyed),
    .handle (sampleEnv 2 0) (.audio keyed), .push, .push, .push, .push]

def connect : List BridgeAction := [.authenticate, .handleControl (sampleEnv 0 0)]

def releaseKey : List BridgeAction := [.handle (sampleEnv 3 0) (.audio unkeyed), .push, .push]

end Bridge

end DmrBridge
