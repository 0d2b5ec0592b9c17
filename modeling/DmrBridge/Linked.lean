import DmrBridge.HomebrewTurn
import DmrBridge.Session

/-!
# The client among the tasks

`homebrew_client::run` step by step beside `voice_task` and `tx_task`, on the queues, the control channel and
the token that they share. An interleaving in which nothing comes between the drain of the queues and the
NetworkReset is one of the bridge, in which the client has three phases.
-/

open Run

namespace DmrBridge

variable {σ φ : Type}

structure Linked (σ φ : Type) where
  client : Client
  /-- The other two tasks. Of its `session` only the end is read: the client's ends of the queues are gone. -/
  bridge : Bridge σ φ

inductive LinkedAction where
  | client (os : Os) (a : ClientAction)
  | task (a : BridgeAction)

/-- Steps of the other tasks, and the token. -/
def BridgeAction.isTask : BridgeAction → Bool
  | .send | .lose | .authenticate | .close => false
  | _ => true

namespace Linked

def start (vocoder : σ) (filter : Option φ) : Linked σ φ := ⟨.start, .start vocoder filter⟩

/-- What the client sees of a step of the others. -/
def share (c : Client) (b : Bridge σ φ) : Client :=
  { c with
    lanes := b.lanes
    control := b.control
    cancelled := b.cancelled
    voiceGone := b.stopping && b.pending.isEmpty }

def clientStep (C : ClientConfig) (s : Linked σ φ) (os : Os) (a : ClientAction) : Option (Linked σ φ) :=
  if a.isOwn then
    (s.client.step C (os, a)).map fun c => ⟨c, { s.bridge with
      lanes := c.lanes
      control := c.control
      session := if c.phase = .returned then .closed else .down
      earlier := if s.client.phase = .notifying then s.bridge.started else s.bridge.earlier }⟩
  else none

/-- A DMRD event is a packet from the client's channel. -/
def taskStep (P : Params σ φ) (s : Linked σ φ) (a : BridgeAction) : Option (Linked σ φ) :=
  if a.isTask then
    match a with
    | .handle env (.dmrd pkt) =>
      match s.client.dmrdIn with
      | next :: dmrdIn =>
        if next = pkt then
          (s.bridge.step P (.handle env (.dmrd pkt))).map fun b =>
            ⟨share { s.client with dmrdIn, taken := s.client.taken ++ [pkt] } b, b⟩
        else none
      | [] => none
    | a => (s.bridge.step P a).map fun b => ⟨share s.client b, b⟩
  else none

def step (P : Params σ φ) (C : ClientConfig) (s : Linked σ φ) : LinkedAction → Option (Linked σ φ)
  | .client os a => clientStep C s os a
  | .task a => taskStep P s a

end Linked

/-! ## The abstraction -/

def ClientPhase.toSession : ClientPhase → SessionPhase
  | .session .. | .forwarding .. => .up
  | .returned => .closed
  | _ => .down

/-- Between the drain of the queues and the NetworkReset. -/
def ClientPhase.drains : ClientPhase → Bool
  | .draining | .notifying => true
  | _ => false

namespace Linked

/-- The drain and the NetworkReset are one step to the others, and `voice_task` ends on the token. -/
def Undisturbed (s : Linked σ φ) : LinkedAction → Prop
  | .client .. => True
  | .task (.shutdown _) => s.client.phase.drains = false ∧ s.bridge.cancelled = true
  | .task _ => s.client.phase.drains = false

instance (s : Linked σ φ) : ∀ act, Decidable (Undisturbed s act)
  | .client .. => .isTrue trivial
  | .task (.shutdown _) => inferInstanceAs (Decidable (_ ∧ _))
  | .task (.handle ..) | .task (.handleControl _) | .task .push | .task .send | .task .lose | .task .authenticate
  | .task .close | .task .cancel | .task (.fmTake _) | .task .fmWake | .task .fmStop =>
    inferInstanceAs (Decidable (s.client.phase.drains = false))

structure Refines (s : Linked σ φ) (b : Bridge σ φ) : Prop where
  lanes : s.client.lanes = s.bridge.lanes
  control : s.client.control = s.bridge.control
  cancelled : s.client.cancelled = s.bridge.cancelled
  gone : s.client.voiceGone = true → s.bridge.cancelled = true
  stopping : s.bridge.stopping = true → s.bridge.cancelled = true
  session : s.bridge.session = if s.client.phase = .returned then .closed else .down
  drains : s.client.phase.drains = true → s.bridge.cancelled = false
  draining : s.client.phase = .draining → s.bridge.lanes.low = []
  notifying : s.client.phase = .notifying → s.bridge.lanes = .empty
  same : b = { s.bridge with session := s.client.phase.toSession, lanes := b.lanes }
  settled : s.client.phase.drains = false → b.lanes = s.bridge.lanes

theorem refines_start (vocoder : σ) (filter : Option φ) :
    Refines (start vocoder filter) (.start vocoder filter) := by
  constructor <;> simp [start, Client.start, Bridge.start, ClientPhase.drains, ClientPhase.toSession]

/-! ## Steps of the client -/

variable {P : Params σ φ} {C : ClientConfig} {s : Linked σ φ} {b : Bridge σ φ} {os : Os} {a : ClientAction} {q : Prop}

/-- The state after a step that leaves the client in `t`. -/
def afterClient (s : Linked σ φ) (t : Client) : Linked σ φ := ⟨t, { s.bridge with
  lanes := t.lanes
  control := t.control
  session := if t.phase = .returned then .closed else .down
  earlier := if s.client.phase = .notifying then s.bridge.started else s.bridge.earlier }⟩

/-- Sends and new sessions only between two handlers, and each call with a stream of its own. -/
def Sequential (P : Params σ φ) (s : Linked σ φ) : LinkedAction → Prop
  | .client _ .send | .client _ .notify => s.bridge.pending = []
  | .client .. => True
  | .task a => s.bridge.NewStream P a

instance (P : Params σ φ) (s : Linked σ φ) : ∀ act, Decidable (Sequential P s act)
  | .client _ .send | .client _ .notify => inferInstanceAs (Decidable (s.bridge.pending = []))
  | .client _ .connected | .client _ (.setupFailed _) | .client _ (.recv _) | .client _ .recvFailed | .client _ .timeout
  | .client _ .drained | .client _ .tick | .client _ .deliver | .client _ .wake | .client _ .stop
  | .client _ (.pushControl _) | .client _ (.pushVoice _) | .client _ .takeControl | .client _ .takeDmrd
  | .client _ .dropVoice | .client _ .cancel => .isTrue trivial
  | .task act => inferInstanceAs (Decidable (s.bridge.NewStream P act))

/-- The conditions under which `session_safe` speaks of a run of the bridge. -/
def Orderly (P : Params σ φ) (b : Bridge σ φ) (a : BridgeAction) : Prop := b.Atomic a ∧ b.NewStream P a

/-- A run of the bridge that matches a step; an orderly one under `q`. -/
def Matched (P : Params σ φ) (q : Prop) (b : Bridge σ φ) (s' : Linked σ φ) : Prop :=
  ∃ bs b', runs (Bridge.step P) b bs = some b' ∧ (q → Along (Bridge.step P) (Orderly P) b bs) ∧ Refines s' b'

theorem matched_stutter {s' : Linked σ φ} (h : Refines s' b) : Matched P q b s' := ⟨[], b, rfl, fun _ => trivial, h⟩

theorem matched_step {s' : Linked σ φ} (act : BridgeAction) (b' : Bridge σ φ) (hstep : b.step P act = some b')
    (hok : q → Orderly P b act) (h : Refines s' b') : Matched P q b s' := by
  refine ⟨[act], b', ?_, fun hq => ⟨hok hq, fun _ _ => trivial⟩, h⟩
  rw [runs_cons, hstep]
  rfl

theorem Refines.eq (h : Refines s b) (hdrains : s.client.phase.drains = false) :
    b = { s.bridge with session := s.client.phase.toSession } := by
  have hsame := h.same
  rwa [h.settled hdrains] at hsame

theorem Refines.cancelled_eq (h : Refines s b) : b.cancelled = s.client.cancelled := by
  rw [h.same, h.cancelled]

theorem refines_after (h : Refines s b) {t : Client} {b' : Bridge σ φ} (hcancelled : t.cancelled = s.client.cancelled)
    (hgone : t.voiceGone = s.client.voiceGone) (hdrains : t.phase.drains = true → t.cancelled = false)
    (hdraining : t.phase = .draining → t.lanes.low = []) (hnotifying : t.phase = .notifying → t.lanes = .empty)
    (hsame : b' = { (afterClient s t).bridge with session := t.phase.toSession, lanes := b'.lanes })
    (hsettled : t.phase.drains = false → b'.lanes = t.lanes) : Refines (afterClient s t) b' where
  lanes := rfl
  control := rfl
  cancelled := hcancelled.trans h.cancelled
  gone := fun hg => h.gone (hgone ▸ hg)
  stopping := h.stopping
  session := rfl
  drains := fun hd => h.cancelled ▸ hcancelled ▸ hdrains hd
  draining := hdraining
  notifying := hnotifying
  same := hsame
  settled := hsettled

/-- The bridge's state behind a client that is not between drain and reset. -/
theorem refines_settled (h : Refines s b) {t : Client} {b' : Bridge σ φ} (hcancelled : t.cancelled = s.client.cancelled)
    (hgone : t.voiceGone = s.client.voiceGone) (hafter : t.phase.drains = false)
    (hsame : b' = { (afterClient s t).bridge with session := t.phase.toSession }) : Refines (afterClient s t) b' := by
  apply refines_after h hcancelled hgone
  · intro hd
    rw [hafter] at hd
    cases hd
  · intro hp
    simp [hp, ClientPhase.drains] at hafter
  · intro hp
    simp [hp, ClientPhase.drains] at hafter
  · rw [hsame]
  · intro _
    rw [hsame]
    rfl

/-- The other tasks after a step that leaves the queues and the control channel alone. -/
theorem bridge_after (h : Refines s b) {t : Client} (hlanes : t.lanes = s.client.lanes)
    (hcontrol : t.control = s.client.control) (hbefore : s.client.phase.drains = false) :
    (afterClient s t).bridge = { s.bridge with session := if t.phase = .returned then .closed else .down } := by
  have hearlier : s.client.phase ≠ .notifying := by rintro hp; simp [hp, ClientPhase.drains] at hbefore
  unfold afterClient
  rw [hlanes, hcontrol, h.lanes, h.control, if_neg hearlier]

/-- A step that the others do not see. -/
theorem matched_unseen (h : Refines s b) {t : Client} (hlanes : t.lanes = s.client.lanes)
    (hcontrol : t.control = s.client.control) (hcancelled : t.cancelled = s.client.cancelled)
    (hgone : t.voiceGone = s.client.voiceGone) (hsession : t.phase.toSession = s.client.phase.toSession)
    (hbefore : s.client.phase.drains = false) (hafter : t.phase.drains = false) : Matched P q b (afterClient s t) := by
  apply matched_stutter
  apply refines_settled h hcancelled hgone hafter
  rw [bridge_after h hlanes hcontrol hbefore, hsession]
  exact h.eq hbefore

/-- The client is done. -/
theorem matched_close (h : Refines s b) {t : Client} (hlanes : t.lanes = s.client.lanes)
    (hcontrol : t.control = s.client.control) (hcancelled : t.cancelled = s.client.cancelled)
    (hgone : t.voiceGone = s.client.voiceGone) (hbefore : s.client.phase.drains = false)
    (hopen : s.client.phase ≠ .returned) (htoken : s.client.cancelled = true) (hafter : t.phase = .returned) :
    Matched P q b (afterClient s t) := by
  have hb := h.eq hbefore
  have hlive : b.session ≠ .closed := by
    rw [hb]
    intro hs
    cases hp : s.client.phase with
    | returned => exact hopen hp
    | _ => simp [hp, ClientPhase.toSession] at hs
  have hcancel : b.cancelled = true := h.cancelled_eq.trans htoken
  apply matched_step .close { b with session := .closed }
  · simp only [Bridge.step, Bridge.close]
    rw [if_pos ⟨hlive, hcancel⟩]
  · exact fun _ => ⟨trivial, trivial⟩
  · apply refines_settled h hcancelled hgone (by rw [hafter]; rfl)
    rw [bridge_after h hlanes hcontrol hbefore, hafter, hb]
    rfl

/-- A session that ends while the token stands. -/
theorem matched_lose (h : Refines s b) {t : Client} (hlanes : t.lanes = s.client.lanes)
    (hcontrol : t.control = s.client.control) (hcancelled : t.cancelled = s.client.cancelled)
    (hgone : t.voiceGone = s.client.voiceGone) (hbefore : s.client.phase.inSession = true)
    (htoken : s.client.cancelled = false) (hafter : ∃ wake, t.phase = .backoff wake) :
    Matched P q b (afterClient s t) := by
  obtain ⟨wake, hafter⟩ := hafter
  have hdrains : s.client.phase.drains = false := by
    cases hp : s.client.phase <;> simp [hp, ClientPhase.inSession, ClientPhase.drains] at hbefore ⊢
  have hup : s.client.phase.toSession = .up := by
    cases hp : s.client.phase <;> simp [hp, ClientPhase.inSession, ClientPhase.toSession] at hbefore ⊢
  have hb := h.eq hdrains
  have hsession : b.session = .up := by rw [hb, hup]
  have hcancel : b.cancelled = false := h.cancelled_eq.trans htoken
  apply matched_step .lose { b with session := .down }
  · simp only [Bridge.step, Bridge.lose]
    rw [if_pos ⟨hsession, hcancel⟩]
  · exact fun _ => ⟨trivial, trivial⟩
  · apply refines_settled h hcancelled hgone (by rw [hafter]; rfl)
    rw [bridge_after h hlanes hcontrol hdrains, hafter, hb]
    rfl

theorem failed_fields (c : Client) (os : Os) (authed : Bool) (source : ConnectFailure) :
    (c.failed os authed source).lanes = c.lanes ∧ (c.failed os authed source).control = c.control ∧
      (c.failed os authed source).cancelled = c.cancelled ∧ (c.failed os authed source).voiceGone = c.voiceGone ∧
        (c.cancelled = true → (c.failed os authed source).phase = .returned) ∧
          (c.cancelled = false → ∃ wake, (c.failed os authed source).phase = .backoff wake) := by
  unfold Client.failed
  cases c.cancelled <;> simp

/-- An attempt that fails. -/
theorem matched_failed (h : Refines s b) (c : Client) (hlanes : c.lanes = s.client.lanes)
    (hcontrol : c.control = s.client.control) (hcancelled : c.cancelled = s.client.cancelled)
    (hgone : c.voiceGone = s.client.voiceGone)
    (hbefore : s.client.phase.handshaking = true ∨ s.client.phase.inSession = true) (authed : Bool)
    (source : ConnectFailure) : Matched P q b (afterClient s (c.failed os authed source)) := by
  obtain ⟨hl, hct, hc, hg, hreturned, hasleep⟩ := failed_fields c os authed source
  have hdrains : s.client.phase.drains = false := by
    cases hp : s.client.phase <;> simp [hp, ClientPhase.handshaking, ClientPhase.inSession,
      ClientPhase.drains] at hbefore ⊢
  cases htoken : s.client.cancelled with
  | true =>
    apply matched_close h (hl.trans hlanes) (hct.trans hcontrol) (hc.trans hcancelled) (hg.trans hgone) hdrains
      _ htoken (hreturned (hcancelled.trans htoken))
    intro hp
    simp [hp, ClientPhase.handshaking, ClientPhase.inSession] at hbefore
  | false =>
    obtain ⟨wake, hphase⟩ := hasleep (hcancelled.trans htoken)
    rcases hbefore with hshake | hsession
    · apply matched_unseen h (hl.trans hlanes) (hct.trans hcontrol) (hc.trans hcancelled) (hg.trans hgone) _ hdrains
      · rw [hphase]
        rfl
      · rw [hphase]
        cases hp : s.client.phase <;> simp [hp, ClientPhase.handshaking, ClientPhase.toSession] at hshake ⊢
    · exact matched_lose h (hl.trans hlanes) (hct.trans hcontrol) (hc.trans hcancelled) (hg.trans hgone) hsession htoken
        ⟨wake, hphase⟩

theorem matched_left (h : Refines s b) (c : Client) (hlanes : c.lanes = s.client.lanes)
    (hcontrol : c.control = s.client.control) (hcancelled : c.cancelled = s.client.cancelled)
    (hgone : c.voiceGone = s.client.voiceGone) (hbefore : s.client.phase.inSession = true) (source : ConnectFailure) :
    Matched P q b (afterClient s (c.leave os (.error source))) :=
  matched_failed h (c.log (.sent .rptcl os.closes)) hlanes hcontrol hcancelled hgone (.inr hbefore) true source

theorem matched_ready (h : Refines s b) {t : Client} {deadline : Instant}
    (hphase : s.client.phase = .configuring deadline)
    (htoken : s.client.cancelled = false) (hafter : t.phase = .draining)
    (hlanes : t.lanes = { s.client.lanes with low := [] }) (hcontrol : t.control = s.client.control)
    (hcancelled : t.cancelled = s.client.cancelled) (hgone : t.voiceGone = s.client.voiceGone) :
    Matched P q b (afterClient s t) := by
  have hb := h.eq (by rw [hphase]; rfl)
  apply matched_stutter
  apply refines_after h hcancelled hgone
  · exact fun _ => hcancelled.trans htoken
  · intro _
    rw [hlanes]
  · intro hp
    rw [hafter] at hp
    cases hp
  · have hctl : t.control = s.bridge.control := hcontrol.trans h.control
    rw [hb]
    simp [afterClient, hafter, hphase, ClientPhase.toSession, hctl]
  · intro hd
    simp [hafter, ClientPhase.drains] at hd

theorem matched_drained (h : Refines s b) {t : Client} (hphase : s.client.phase = .draining)
    (hafter : t.phase = .notifying) (hlanes : t.lanes = { s.client.lanes with high := [], sent := [] })
    (hcontrol : t.control = s.client.control) (hcancelled : t.cancelled = s.client.cancelled)
    (hgone : t.voiceGone = s.client.voiceGone) : Matched P q b (afterClient s t) := by
  have hstage : s.client.phase.drains = true := by rw [hphase]; rfl
  apply matched_stutter
  apply refines_after h hcancelled hgone
  · exact fun _ => (hcancelled.trans h.cancelled).trans (h.drains hstage)
  · intro hp
    rw [hafter] at hp
    cases hp
  · intro _
    rw [hlanes, h.lanes]
    simp [h.draining hphase, Lanes.empty]
  · have hctl : t.control = s.bridge.control := hcontrol.trans h.control
    have hsame := h.same
    simp only [hphase, ClientPhase.toSession] at hsame
    simp only [afterClient, hafter, hphase, ClientPhase.toSession, hctl]
    exact hsame
  · intro hd
    simp [hafter, ClientPhase.drains] at hd

theorem matched_opened (h : Refines s b) (hphase : s.client.phase = .notifying)
    (hroom : s.client.control.length < voiceCtlDepth) (hpending : q → s.bridge.pending = []) :
    Matched P q b (afterClient s (s.client.openSession C os)) := by
  have hstage : s.client.phase.drains = true := by rw [hphase]; rfl
  have hsame := h.same
  simp only [hphase, ClientPhase.toSession] at hsame
  have hcancel : b.cancelled = false := by rw [hsame, ← h.drains hstage]
  have hdown : b.session = .down := by rw [hsame]
  have hcontrol : b.control = s.client.control := by rw [hsame, h.control]
  apply matched_step .authenticate
    { b with session := .up, lanes := .empty, control := b.control ++ [.networkReset], earlier := b.started }
  · simp only [Bridge.step, Bridge.authenticate]
    rw [if_pos ⟨hdown, hcancel, hcontrol ▸ hroom⟩]
  · intro hq
    refine ⟨?_, trivial⟩
    rw [hsame]
    exact hpending hq
  · apply refines_settled (t := s.client.openSession C os) h rfl rfl rfl
    rw [hsame]
    simp only [afterClient, hphase, Client.openSession, Client.log, ClientPhase.toSession, h.lanes, h.notifying hphase,
      h.control]
    simp

theorem matched_send (h : Refines s b) {tracker : KeepaliveTracker} {nextTick : Instant} {lanes : Lanes DmrdPacket}
    {e : ClientEvent} (hphase : s.client.phase = .session tracker nextTick) (htoken : s.client.cancelled = false)
    (hpop : s.client.lanes.pop = some lanes) (hpending : q → s.bridge.pending = []) :
    Matched P q b (afterClient s { s.client.log e with lanes }) := by
  have hb := h.eq (by rw [hphase]; rfl)
  have hup : b.session = .up := by rw [hb, hphase]; rfl
  have hcancel : b.cancelled = false := h.cancelled_eq.trans htoken
  have hlanes : b.lanes = s.client.lanes := by rw [hb, h.lanes]
  apply matched_step .send { b with lanes }
  · simp only [Bridge.step, Bridge.send]
    rw [if_pos ⟨hup, hcancel⟩, hlanes, hpop]
    rfl
  · intro hq
    refine ⟨?_, trivial⟩
    rw [hb]
    exact hpending hq
  · apply refines_settled (t := { s.client.log e with lanes }) h rfl rfl
    · change s.client.phase.drains = false
      rw [hphase]
      rfl
    · rw [hb]
      simp [afterClient, Client.log, hphase, ClientPhase.toSession, h.control]

theorem Refines.token (h : Refines s b) (hend : s.client.cancelled = true ∨ s.client.voiceGone = true) :
    s.client.cancelled = true := by
  rcases hend with hcancelled | hgone
  · exact hcancelled
  · exact h.cancelled.trans (h.gone hgone)

theorem matched_client (h : Refines s b) (hown : a.isOwn = true) (hok : q → Sequential P s (.client os a)) {t : Client}
    (hturn : Client.Turn C s.client os a t) : Matched P q b (afterClient s t) := by
  cases hturn with
  | greet hphase | prove hphase | configure hphase | ping hphase | pong hphase | inbound hphase | deliver hphase
  | wake hphase =>
    refine matched_unseen h rfl rfl rfl rfl ?_ ?_ rfl
    · rw [hphase]
      rfl
    · rw [hphase]
      rfl
  | ignore hphase | noise hphase =>
    exact matched_unseen h rfl rfl rfl rfl rfl (by rw [hphase]; rfl) (by simp [Client.log, hphase, ClientPhase.drains])
  | ready hphase htoken => exact matched_ready h hphase htoken rfl rfl rfl rfl rfl
  | refused last source hphase =>
    exact matched_failed h { s.client with events := s.client.events ++ last } rfl rfl rfl rfl (.inl hphase) _ _
  | drained hphase => exact matched_drained h hphase rfl rfl rfl rfl rfl
  | opened hact hphase hroom =>
    subst hact
    exact matched_opened h hphase hroom hok
  | unsentPing hphase => exact matched_left h ((s.client.beat _).log _) rfl rfl rfl rfl (by rw [hphase]; rfl) _
  | lost hphase => exact matched_left h (s.client.beat _) rfl rfl rfl rfl (by rw [hphase]; rfl) _
  | dismissed hphase => exact matched_left h (s.client.log _) rfl rfl rfl rfl (by rw [hphase]; rfl) _
  | broken hphase => exact matched_left h s.client rfl rfl rfl rfl (by rw [hphase]; rfl) _
  | send hact hphase htoken hpop =>
    subst hact
    exact matched_send h hphase htoken hpop hok
  | closed hphase hend =>
    have hdrains : s.client.phase.drains = false := by
      cases hp : s.client.phase <;> simp [hp, ClientPhase.inSession, ClientPhase.drains] at hphase ⊢
    refine matched_close h rfl rfl rfl rfl hdrains (fun hp => ?_) (h.token hend) rfl
    simp [hp, ClientPhase.inSession] at hphase
  | quit hphase hend =>
    have htoken := h.token hend
    rcases hphase with hp | ⟨wake, hp⟩
    · have hstand := h.drains (by rw [hp]; rfl)
      rw [← h.cancelled, htoken] at hstand
      cases hstand
    · exact matched_close h rfl rfl rfl rfl (by rw [hp]; rfl) (by rw [hp]; simp) htoken rfl
  | other lanes control dmrdIn taken cancelled voiceGone hother =>
    rw [hown] at hother
    cases hother

/-! ## Steps of the other tasks -/

/-- The other tasks read of the session only whether it is over. -/
theorem step_session (P : Params σ φ) (x : Bridge σ φ) (phase : SessionPhase)
    (hclosed : x.session = .closed ↔ phase = .closed) {act : BridgeAction} (hact : act.isTask = true) :
    Bridge.step P { x with session := phase } act = (Bridge.step P x act).map fun y => { y with session := phase } := by
  cases act with
  | send | lose | authenticate | close => cases hact
  | handle env ev =>
    simp only [Bridge.step, Bridge.takeInput]
    split <;> rfl
  | handleControl env =>
    simp only [Bridge.step, Bridge.takeControl]
    split
    · rfl
    · split <;> rfl
  | shutdown env =>
    simp only [Bridge.step, Bridge.shutdown]
    split <;> rfl
  | push =>
    simp only [Bridge.step, Bridge.push]
    split
    · rfl
    · rename_i o pending hpending
      cases o with
      | control | metadata | stats | panicked => rfl
      | voice pkt queued =>
        have hlive : phase ≠ .closed ↔ x.session ≠ .closed := not_congr hclosed.symm
        simp only [Bridge.sendOne, hlive]
        split
        · cases queued <;> rfl
        · rfl
      | audio frame =>
        simp only [Bridge.sendOne]
        split
        · rfl
        · split <;> rfl
  | cancel => rfl
  | fmTake paced =>
    simp only [Bridge.step, Bridge.fmTake]
    split
    · split
      · rfl
      · split <;> rfl
    · rfl
  | fmWake =>
    simp only [Bridge.step, Bridge.fmWake]
    split
    · split <;> rfl
    · rfl
  | fmStop =>
    simp only [Bridge.step, Bridge.fmStop]
    split <;> rfl

theorem task_fields {x y : Bridge σ φ} {act : BridgeAction} (hact : act.isTask = true)
    (h : Bridge.step P x act = some y) :
    y.session = x.session ∧ (x.cancelled = true → y.cancelled = true) ∧
      (y.stopping = true → x.stopping = true ∨ ∃ env, act = .shutdown env) := by
  cases Bridge.step_move h with
  | handle | handleControl => exact ⟨rfl, fun hc => by simp [Bridge.react, hc], fun hs => .inl hs⟩
  | @shutdown env => exact ⟨rfl, fun hc => by simp [Bridge.react, hc], fun _ => .inr ⟨env, rfl⟩⟩
  | control | voice | full | other | fm => exact ⟨rfl, id, fun hs => .inl hs⟩
  | cancel => exact ⟨rfl, fun _ => rfl, fun hs => .inl hs⟩
  | send | lose | authenticate | close => cases hact

theorem matched_task (h : Refines s b) {act : BridgeAction} (hact : act.isTask = true) {y : Bridge σ φ}
    (hstep : Bridge.step P s.bridge act = some y) (hcalm : Undisturbed s (.task act))
    (hok : q → s.bridge.NewStream P act) (dmrdIn taken : List Dmrd) :
    Matched P q b ⟨share { s.client with dmrdIn, taken } y, y⟩ := by
  have hdrains : s.client.phase.drains = false := by
    cases act with
    | shutdown env => exact hcalm.1
    | _ => exact hcalm
  obtain ⟨hsession, hcancelled, hstopping⟩ := task_fields hact hstep
  have hends : y.stopping = true → y.cancelled = true := by
    intro hs
    rcases hstopping hs with hbefore | ⟨env, rfl⟩
    · exact hcancelled (h.stopping hbefore)
    · exact hcancelled hcalm.2
  have hclosed : s.bridge.session = .closed ↔ s.client.phase.toSession = .closed := by
    rw [h.session]
    cases hp : s.client.phase <;> simp [ClientPhase.toSession]
  have hb := h.eq hdrains
  apply matched_step act { y with session := s.client.phase.toSession }
  · rw [hb, step_session P s.bridge _ hclosed hact, hstep]
    rfl
  · rw [hb]
    intro hq
    refine ⟨?_, ?_⟩
    · cases act with
      | send | lose | authenticate | close => cases hact
      | _ => trivial
    · cases act with
      | handle env ev => exact hok hq
      | _ => trivial
  · constructor
    · rfl
    · rfl
    · rfl
    · intro hg
      simp only [share, Bool.and_eq_true] at hg
      exact hends hg.1
    · exact hends
    · exact hsession.trans h.session
    · intro hd
      simp [share, hdrains] at hd
    · intro hp
      simp [show s.client.phase = _ from hp, ClientPhase.drains] at hdrains
    · intro hp
      simp [show s.client.phase = _ from hp, ClientPhase.drains] at hdrains
    · rfl
    · intro _
      rfl

/-! ## Runs -/

theorem matched_linked (h : Refines s b) {act : LinkedAction} {s' : Linked σ φ} (hcalm : Undisturbed s act)
    (hstep : step P C s act = some s') : Matched P (Sequential P s act) b s' := by
  cases act with
  | client os a =>
    simp only [step, clientStep, Option.ite_none_right_eq_some, Option.map_eq_some_iff] at hstep
    obtain ⟨hown, t, ht, rfl⟩ := hstep
    exact matched_client h hown id (Client.step_turn ht)
  | task act =>
    simp only [step, taskStep, Option.ite_none_right_eq_some] at hstep
    obtain ⟨hact, hstep⟩ := hstep
    split at hstep
    · rename_i env pkt
      split at hstep
      · rename_i next dmrdIn hqueue
        simp only [Option.ite_none_right_eq_some, Option.map_eq_some_iff] at hstep
        obtain ⟨-, y, hy, rfl⟩ := hstep
        exact matched_task h hact hy hcalm id dmrdIn _
      · cases hstep
    · obtain ⟨y, hy, rfl⟩ := Option.map_eq_some_iff.mp hstep
      exact matched_task h hact hy hcalm id s.client.dmrdIn s.client.taken

theorem linked_matched (P : Params σ φ) (C : ClientConfig) (vocoder : σ) (filter : Option φ) {as : List LinkedAction}
    {t : Linked σ φ} (hcalm : Along (step P C) Undisturbed (start vocoder filter) as)
    (hrun : runs (step P C) (start vocoder filter) as = some t) :
    ∃ bs b, runs (Bridge.step P) (.start vocoder filter) bs = some b ∧ Refines t b := by
  have hmatched (s : Linked σ φ) (b : Bridge σ φ) (act : LinkedAction) (s' : Linked σ φ) (h : Refines s b)
      (hok : Undisturbed s act) (hstep : step P C s act = some s') :
      ∃ bs b', runs (Bridge.step P) b bs = some b' ∧ Along (Bridge.step P) (fun _ _ => True) b bs ∧ Refines s' b' := by
    obtain ⟨bs, b', hbs, -, hnext⟩ := matched_linked h hok hstep
    exact ⟨bs, b', hbs, along_of_forall (fun _ _ => trivial) b bs, hnext⟩
  obtain ⟨bs, b, hbs, -, h⟩ := runs_simulation hmatched (refines_start vocoder filter) hcalm hrun
  exact ⟨bs, b, hbs, h⟩

/-- In an orderly interleaving the bridge's run is orderly too. -/
theorem linked_orderly (P : Params σ φ) (C : ClientConfig) (vocoder : σ) (filter : Option φ) {as : List LinkedAction}
    {t : Linked σ φ} (hcalm : Along (step P C) Undisturbed (start vocoder filter) as)
    (hok : Along (step P C) (Sequential P) (start vocoder filter) as)
    (hrun : runs (step P C) (start vocoder filter) as = some t) :
    ∃ bs b, runs (Bridge.step P) (.start vocoder filter) bs = some b ∧
      Along (Bridge.step P) (Orderly P) (.start vocoder filter) bs ∧ Refines t b := by
  apply runs_simulation _ (refines_start vocoder filter) (along_and hcalm hok) hrun
  intro s b act s' h hboth hstep
  obtain ⟨bs, b', hbs, halong, hnext⟩ := matched_linked h hboth.1 hstep
  exact ⟨bs, b', hbs, halong hboth.2, hnext⟩

end Linked

end DmrBridge
