import DmrBridge.Homebrew

/-!
# What a step of the client can do

One constructor of `Turn` for each way through the loops of the client, with what the code has checked there.
-/

open Run

namespace DmrBridge

def isNak (data : List UInt8) : Prop := tagMstnak.isPrefixOf data
def isAck (data : List UInt8) : Prop := tagRptack.isPrefixOf data
def isChallenge (data : List UInt8) : Prop := isAck data ∧ tagRptack.length + nonceLen ≤ data.length
def nonceOf (data : List UInt8) : List UInt8 := (data.drop tagRptack.length).take nonceLen

namespace Client

variable {C : ClientConfig} {c t : Client} {os : Os} {a : ClientAction}

/-! ## What a step can do -/

/-- The last events of a handshake that fails: one datagram, one send that fails, or both. -/
def Offence (last : List ClientEvent) : Prop :=
  ∃ received : Option (List UInt8), ∃ unsent : Option Outgoing,
    last = received.toList.map ClientEvent.received ++ unsent.toList.map (.sent · false)

inductive Turn (C : ClientConfig) (c : Client) (os : Os) (a : ClientAction) : Client → Prop where
  | greet (hphase : c.phase = .connecting) :
      Turn C c os a { c.log (.sent .rptl true) with phase := .login (os.now + authTimeout) }
  | ignore {deadline : Instant} {data : List UInt8} (hphase : c.phase = .login deadline) (hnak : ¬ isNak data)
      (hchallenge : ¬ isChallenge data) : Turn C c os a (c.log (.received data))
  | prove {deadline : Instant} {data : List UInt8} (hphase : c.phase = .login deadline)
      (hchallenge : isChallenge data) :
      Turn C c os a { (c.log (.received data)).log (.sent (.rptk (nonceOf data)) true) with phase := .auth deadline }
  | configure {deadline : Instant} {data : List UInt8} (hphase : c.phase = .auth deadline) (hack : isAck data) :
      Turn C c os a { (c.log (.received data)).log (.sent .rptc true) with phase := .configuring deadline }
  | ready {deadline : Instant} {data : List UInt8} (hphase : c.phase = .configuring deadline)
      (hlive : c.cancelled = false) (hack : isAck data) :
      Turn C c os a { c.log (.received data) with phase := .draining, lanes := { c.lanes with low := [] } }
  | refused (last : List ClientEvent) (source : ConnectFailure) (hphase : c.phase.handshaking = true)
      (hlast : Offence last) : Turn C c os a ({ c with events := c.events ++ last }.failed os false source)
  | drained (hphase : c.phase = .draining) :
      Turn C c os a { c with phase := .notifying, lanes := { c.lanes with high := [], sent := [] } }
  | opened (hact : a = .notify) (hphase : c.phase = .notifying) (hroom : c.control.length < voiceCtlDepth) :
      Turn C c os a (c.openSession C os)
  | ping {tracker tracker' : KeepaliveTracker} {nextTick : Instant} (hphase : c.phase = .session tracker nextTick)
      (htime : nextTick ≤ os.now) (hcheck : tracker.checkMissed = (tracker', .ok ())) (hbeats : a.beats = true) :
      Turn C c os a { (c.beat (.tick os.now)).log (.sent .ping true) with
        phase := .session (tracker'.recordPing os.now) (nextTimeout C nextTick os.now) }
  | unsentPing {tracker tracker' : KeepaliveTracker} {nextTick : Instant} (hphase : c.phase = .session tracker nextTick)
      (htime : nextTick ≤ os.now) (hcheck : tracker.checkMissed = (tracker', .ok ())) (hbeats : a.beats = true) :
      Turn C c os a (((c.beat (.tick os.now)).log (.sent .ping false)).leave os (.error .io))
  | lost {tracker tracker' : KeepaliveTracker} {nextTick : Instant} {e : NetworkError}
      (hphase : c.phase = .session tracker nextTick) (htime : nextTick ≤ os.now)
      (hcheck : tracker.checkMissed = (tracker', .error e)) (hbeats : a.beats = true) :
      Turn C c os a ((c.beat (.tick os.now)).leave os (.error (.keepalive e)))
  | pong {tracker : KeepaliveTracker} {nextTick : Instant} {data : List UInt8}
      (hphase : c.phase = .session tracker nextTick) (hdata : classify data = .pong) (hbeats : a.beats = true) :
      Turn C c os a { (c.log (.received data)).beat (.pong os.now) with
        phase := .session (tracker.recordPong os.now) nextTick }
  | inbound {tracker : KeepaliveTracker} {nextTick : Instant} {data : List UInt8} {pkt : Dmrd}
      (hphase : c.phase = .session tracker nextTick) (hdata : classify data = .dmrd pkt) :
      Turn C c os a { c.log (.received data) with phase := .forwarding tracker nextTick pkt }
  | noise {tracker : KeepaliveTracker} {nextTick : Instant} {data : List UInt8}
      (hphase : c.phase = .session tracker nextTick) (hpong : classify data ≠ .pong)
      (hdata : ∀ pkt, classify data ≠ .dmrd pkt) : Turn C c os a (c.log (.received data))
  | dismissed {tracker : KeepaliveTracker} {nextTick : Instant} {data : List UInt8} {source : ConnectFailure}
      (hphase : c.phase = .session tracker nextTick) (hdata : ∀ pkt, classify data ≠ .dmrd pkt)
      (hsource : ∀ e, source ≠ .keepalive e) : Turn C c os a ((c.log (.received data)).leave os (.error source))
  | deliver {tracker : KeepaliveTracker} {nextTick : Instant} {pkt : Dmrd}
      (hphase : c.phase = .forwarding tracker nextTick pkt) (hroom : c.dmrdIn.length < voiceInDepth) :
      Turn C c os a { c.log (.forwarded pkt) with phase := .session tracker nextTick, dmrdIn := c.dmrdIn ++ [pkt] }
  | send {tracker : KeepaliveTracker} {nextTick : Instant} {pkt : DmrdPacket} {lanes : Lanes DmrdPacket}
      (hact : a = .send) (hphase : c.phase = .session tracker nextTick) (hlive : c.cancelled = false)
      (hpop : c.lanes.pop = some lanes) (hsent : lanes.sent = c.lanes.sent ++ [pkt]) :
      Turn C c os a { c.log (.sent (.dmrd pkt) os.sends) with lanes }
  | broken {tracker : KeepaliveTracker} {nextTick : Instant} (hphase : c.phase = .session tracker nextTick) :
      Turn C c os a (c.leave os (.error .io))
  | closed (hphase : c.phase.inSession = true) (hend : c.cancelled = true ∨ c.voiceGone = true) :
      Turn C c os a (c.leave os (.ok ()))
  | quit (hphase : c.phase = .notifying ∨ ∃ wake, c.phase = .backoff wake)
      (hend : c.cancelled = true ∨ c.voiceGone = true) : Turn C c os a { c with phase := .returned }
  | wake {wake : Instant} (hphase : c.phase = .backoff wake) (htime : wake ≤ os.now) :
      Turn C c os a { c with phase := .connecting, backoff := c.backoff.double }
  | other (lanes : Lanes DmrdPacket) (control : List ControlEvent) (dmrdIn taken : List Dmrd)
      (cancelled voiceGone : Bool) (hother : a.isOwn = false) (hsent : lanes.sent = c.lanes.sent)
      (htaken : taken ++ dmrdIn = c.taken ++ c.dmrdIn) :
      Turn C c os a { c with lanes, control, dmrdIn, taken, cancelled, voiceGone }

theorem offence_nil : Offence [] := ⟨none, none, rfl⟩

theorem refused_of_failed {last : List ClientEvent} {source : ConnectFailure} (hphase : c.phase.handshaking = true)
    (hlast : Offence last) (hevents : t.events = c.events ++ last) (h : { t with events := c.events } = c) :
    Turn C c os a (t.failed os false source) := by
  have ht : t = { c with events := c.events ++ last } := by
    rw [← h, ← hevents]
  rw [ht]
  exact .refused last source hphase hlast

theorem turn_request {u : Client} (received : Option (List UInt8)) {pkt : Outgoing} {next : ClientPhase}
    (hphase : c.phase.handshaking = true) (hevents : u.events = c.events ++ received.toList.map ClientEvent.received)
    (hrest : { u with events := c.events } = c)
    (hsent : Turn C c os a { u.log (.sent pkt true) with phase := next }) : Turn C c os a (u.request os pkt next) := by
  unfold request
  cases hok : os.sends with
  | true =>
    rw [if_pos rfl]
    exact hsent
  | false =>
    rw [if_neg (by simp)]
    apply refused_of_failed hphase ⟨received, some pkt, rfl⟩
    · simp [log, hevents]
    · exact hrest

theorem turn_login {deadline : Instant} (data : List UInt8) (hphase : c.phase = .login deadline) :
    Turn C c os a (c.onLogin os deadline data) := by
  have hstage : c.phase.handshaking = true := by simp [hphase, ClientPhase.handshaking]
  unfold onLogin
  dsimp only
  split
  · exact refused_of_failed hstage ⟨some data, none, rfl⟩ rfl rfl
  · rename_i hnak
    split
    · rename_i hchallenge
      exact turn_request (some data) hstage rfl rfl (.prove hphase hchallenge)
    · rename_i hchallenge
      exact .ignore hphase hnak hchallenge

theorem turn_auth {deadline : Instant} (data : List UInt8) (hphase : c.phase = .auth deadline) :
    Turn C c os a (c.onAuth os deadline data) := by
  have hstage : c.phase.handshaking = true := by simp [hphase, ClientPhase.handshaking]
  unfold onAuth
  dsimp only
  split
  · exact refused_of_failed hstage ⟨some data, none, rfl⟩ rfl rfl
  · split
    · exact refused_of_failed hstage ⟨some data, none, rfl⟩ rfl rfl
    · rename_i hack
      exact turn_request (some data) hstage rfl rfl (.configure hphase (not_not.mp hack))

theorem turn_config {deadline : Instant} (data : List UInt8) (hphase : c.phase = .configuring deadline)
    (hlive : c.cancelled = false) :
    Turn C c os a (c.onConfig os data) := by
  have hstage : c.phase.handshaking = true := by simp [hphase, ClientPhase.handshaking]
  unfold onConfig
  dsimp only
  split
  · exact refused_of_failed hstage ⟨some data, none, rfl⟩ rfl rfl
  · split
    · exact refused_of_failed hstage ⟨some data, none, rfl⟩ rfl rfl
    · rename_i hack
      exact .ready hphase hlive (not_not.mp hack)

theorem turn_tick {tracker : KeepaliveTracker} {nextTick : Instant} (hphase : c.phase = .session tracker nextTick)
    (htime : nextTick ≤ os.now) : Turn C c os .tick (c.onTick C os tracker nextTick) := by
  unfold onTick
  dsimp only
  split
  · rename_i hcheck
    exact .lost hphase htime hcheck rfl
  · rename_i tracker' hcheck
    cases hok : os.sends with
    | true =>
      rw [if_pos rfl]
      exact .ping hphase htime hcheck rfl
    | false =>
      rw [if_neg (by simp)]
      exact .unsentPing hphase htime hcheck rfl

theorem turn_recv {tracker : KeepaliveTracker} {nextTick : Instant} (datagram : List UInt8)
    (hphase : c.phase = .session tracker nextTick) :
    Turn C c os (.recv datagram) (c.onRecv os tracker nextTick (datagram.take maxRecv)) := by
  unfold onRecv
  dsimp only
  cases hdata : classify (datagram.take maxRecv) with
  | pong => exact .pong hphase hdata (by rw [ClientAction.beats, hdata])
  | dmrd pkt => exact .inbound hphase hdata
  | masterNak | masterDisconnect => exact .dismissed hphase (by simp [hdata]) (by simp)
  | dmrdParseError | rptAck | rptSbkn | unknown => exact .noise hphase (by simp [hdata]) (by simp [hdata])

theorem turn_send (hlive : c.cancelled = false) (h : c.send os = some t) : Turn C c os .send t := by
  unfold send at h
  split at h
  · rename_i hphase
    split at h
    · rename_i pkt high low hhigh
      cases h
      exact .send rfl hphase hlive (by simp [Lanes.pop, hhigh]) rfl
    · rename_i pkt low hhigh hlow
      split at h
      · cases h
      · cases h
        exact .send rfl hphase hlive (by simp [Lanes.pop, hhigh, hlow]) rfl
    · cases h
  · cases h

theorem turn_stop (h : c.stop os = some t) : Turn C c os a t := by
  have hrefused (hphase : c.phase.handshaking = true) : Turn C c os a (c.failed os false .authCancelled) :=
    refused_of_failed hphase offence_nil (List.append_nil c.events).symm rfl
  cases hphase : c.phase with
  | connecting | login | auth | configuring =>
    simp only [stop, hphase, Option.ite_none_right_eq_some, Option.some.injEq] at h
    obtain ⟨-, rfl⟩ := h
    exact hrefused (by simp [hphase, ClientPhase.handshaking])
  | notifying =>
    simp only [stop, hphase, Option.ite_none_right_eq_some, Option.some.injEq] at h
    obtain ⟨hgone, rfl⟩ := h
    exact .quit (.inl hphase) (.inr hgone)
  | session =>
    simp only [stop, hphase, Option.ite_none_right_eq_some, Option.some.injEq] at h
    obtain ⟨hend, rfl⟩ := h
    exact .closed (by simp [hphase, ClientPhase.inSession]) (hend.imp_right fun hgone => hgone.1)
  | forwarding =>
    simp only [stop, hphase, Option.ite_none_right_eq_some, Option.some.injEq] at h
    obtain ⟨hgone, rfl⟩ := h
    exact .closed (by simp [hphase, ClientPhase.inSession]) (.inr hgone)
  | backoff wake =>
    simp only [stop, hphase, Option.ite_none_right_eq_some, Option.some.injEq] at h
    obtain ⟨hcancelled, rfl⟩ := h
    exact .quit (.inr ⟨wake, hphase⟩) (.inl hcancelled)
  | draining | returned => simp [stop, hphase] at h

theorem turn_recvFailed (h : c.recvFailed os = some t) : Turn C c os a t := by
  cases hphase : c.phase with
  | login | auth | configuring =>
    simp only [recvFailed, hphase, Option.some.injEq] at h
    subst h
    exact refused_of_failed (by simp [hphase, ClientPhase.handshaking]) offence_nil (List.append_nil c.events).symm rfl
  | session =>
    simp only [recvFailed, hphase, Option.some.injEq] at h
    subst h
    exact .broken hphase
  | connecting | draining | notifying | forwarding | backoff | returned => simp [recvFailed, hphase] at h

theorem turn_timeout (h : c.timeout os = some t) : Turn C c os a t := by
  cases hphase : c.phase with
  | login | auth | configuring =>
    simp only [timeout, hphase, Option.ite_none_right_eq_some, Option.some.injEq] at h
    obtain ⟨-, rfl⟩ := h
    exact refused_of_failed (by simp [hphase, ClientPhase.handshaking]) offence_nil (List.append_nil c.events).symm rfl
  | connecting | draining | notifying | session | forwarding | backoff | returned => simp [timeout, hphase] at h

theorem turn_datagram {datagram : List UInt8} (hlive : c.cancelled = false) (h : c.recv os datagram = some t) :
    Turn C c os (.recv datagram) t := by
  cases hphase : c.phase with
  | login =>
    simp only [recv, hphase, Option.some.injEq] at h
    subst h
    exact turn_login _ hphase
  | auth =>
    simp only [recv, hphase, Option.some.injEq] at h
    subst h
    exact turn_auth _ hphase
  | configuring =>
    simp only [recv, hphase, Option.some.injEq] at h
    subst h
    exact turn_config _ hphase hlive
  | session =>
    simp only [recv, hphase, Option.some.injEq] at h
    subst h
    exact turn_recv _ hphase
  | connecting | draining | notifying | forwarding | backoff | returned => simp [recv, hphase] at h

theorem some_of_unlessCancelled {u : Option Client} (h : c.unlessCancelled u = some t) :
    c.cancelled = false ∧ u = some t := by
  simpa [unlessCancelled] using h

theorem turn_other (h : c.step C (os, a) = some t)
    (ha : a = .takeControl ∨ a = .takeDmrd ∨ a = .dropVoice ∨ a = .cancel ∨
      ∃ pkt, a = .pushControl pkt ∨ a = .pushVoice pkt) :
    Turn C c os a t := by
  obtain rfl | rfl | rfl | rfl | ⟨pkt, rfl | rfl⟩ := ha
  · simp only [step] at h
    split at h
    · cases h
    · rename_i event control hcontrol
      simp only [Option.ite_none_left_eq_some, Option.some.injEq] at h
      obtain ⟨-, rfl⟩ := h
      exact .other c.lanes control c.dmrdIn c.taken c.cancelled c.voiceGone rfl rfl rfl
  · simp only [step] at h
    split at h
    · cases h
    · rename_i pkt dmrdIn hdmrd
      simp only [Option.ite_none_left_eq_some, Option.some.injEq] at h
      obtain ⟨-, rfl⟩ := h
      exact .other c.lanes c.control dmrdIn (c.taken ++ [pkt]) c.cancelled c.voiceGone rfl rfl (by simp [hdmrd])
  · cases h
    exact .other c.lanes c.control c.dmrdIn c.taken c.cancelled true rfl rfl rfl
  · cases h
    exact .other c.lanes c.control c.dmrdIn c.taken true c.voiceGone rfl rfl rfl
  · simp only [step, Option.ite_none_left_eq_some, Option.some.injEq] at h
    obtain ⟨-, rfl⟩ := h
    exact .other (c.lanes.pushHigh pkt) c.control c.dmrdIn c.taken c.cancelled c.voiceGone rfl rfl rfl
  · simp only [step, Option.ite_none_right_eq_some, Option.some.injEq] at h
    obtain ⟨-, rfl⟩ := h
    exact .other (c.lanes.pushLow pkt) c.control c.dmrdIn c.taken c.cancelled c.voiceGone rfl rfl rfl

theorem step_turn (h : c.step C (os, a) = some t) : Turn C c os a t := by
  cases a with
  | connected =>
    cases hphase : c.phase with
    | connecting =>
      simp only [step, hphase] at h
      obtain ⟨-, hsome⟩ := some_of_unlessCancelled h
      cases hsome
      have hstage : c.phase.handshaking = true := by simp [hphase, ClientPhase.handshaking]
      exact turn_request none hstage (List.append_nil c.events).symm rfl (.greet hphase)
    | _ => simp [step, hphase] at h
  | setupFailed e =>
    cases hphase : c.phase with
    | connecting =>
      simp only [step, hphase] at h
      obtain ⟨-, hsome⟩ := some_of_unlessCancelled h
      cases hsome
      have hstage : c.phase.handshaking = true := by simp [hphase, ClientPhase.handshaking]
      exact refused_of_failed hstage offence_nil (List.append_nil c.events).symm rfl
    | _ => simp [step, hphase] at h
  | recv datagram =>
    obtain ⟨hlive, hsome⟩ := some_of_unlessCancelled h
    exact turn_datagram hlive hsome
  | recvFailed => exact turn_recvFailed (some_of_unlessCancelled h).2
  | timeout => exact turn_timeout (some_of_unlessCancelled h).2
  | drained =>
    cases hphase : c.phase with
    | draining =>
      simp only [step, hphase, Option.some.injEq] at h
      subst h
      exact .drained hphase
    | _ => simp [step, hphase] at h
  | notify =>
    cases hphase : c.phase with
    | notifying =>
      simp only [step, hphase, Option.ite_none_right_eq_some, Option.some.injEq] at h
      obtain ⟨⟨-, hroom⟩, rfl⟩ := h
      exact .opened rfl hphase hroom
    | _ => simp [step, hphase] at h
  | tick =>
    cases hphase : c.phase with
    | session =>
      simp only [step, hphase, Option.ite_none_right_eq_some] at h
      obtain ⟨htime, hlive⟩ := h
      cases (some_of_unlessCancelled hlive).2
      exact turn_tick hphase htime
    | _ => simp [step, hphase] at h
  | deliver =>
    cases hphase : c.phase with
    | forwarding =>
      simp only [step, deliver, hphase, Option.ite_none_right_eq_some, Option.some.injEq] at h
      obtain ⟨⟨-, hroom⟩, rfl⟩ := h
      exact .deliver hphase hroom
    | _ => simp [step, deliver, hphase] at h
  | send =>
    obtain ⟨hlive, hsome⟩ := some_of_unlessCancelled h
    exact turn_send hlive hsome
  | wake =>
    cases hphase : c.phase with
    | backoff =>
      simp only [step, hphase, Option.ite_none_right_eq_some] at h
      obtain ⟨htime, hlive⟩ := h
      cases (some_of_unlessCancelled hlive).2
      exact .wake hphase htime
    | _ => simp [step, hphase] at h
  | stop => exact turn_stop h
  | takeControl | takeDmrd | dropVoice | cancel => exact turn_other h (by simp)
  | pushControl pkt | pushVoice pkt => exact turn_other h (by simp)

end Client

end DmrBridge
