import DmrBridge.HomebrewTurn

/-!
# What the client says to the master

An attempt is a handshake, and once that is through a session between one NetworkReset and one RPTCL.
-/

open Run

namespace DmrBridge

/-! ## Handshakes -/

/-- What the master says in a handshake that goes through. -/
structure Handshake where
  ignored : List (List UInt8)
  challenge : List UInt8
  accept : List UInt8
  ready : List UInt8
  ignored_quiet : ∀ data ∈ ignored, ¬ isNak data ∧ ¬ isChallenge data
  isChallenge : isChallenge challenge
  accepted : isAck accept
  configured : isAck ready

namespace Handshake

def greeting (h : Handshake) : List ClientEvent := .sent .rptl true :: h.ignored.map .received

def proof (h : Handshake) : List ClientEvent :=
  h.greeting ++ [.received h.challenge, .sent (.rptk (nonceOf h.challenge)) true]

def configuration (h : Handshake) : List ClientEvent := h.proof ++ [.received h.accept, .sent .rptc true]

def events (h : Handshake) : List ClientEvent := h.configuration ++ [.received h.ready]

/-- The shortest one. -/
def plain : Handshake where
  ignored := []
  challenge := tagRptack ++ [0, 0, 0, 0]
  accept := tagRptack
  ready := tagRptack
  ignored_quiet := by simp
  isChallenge := by
    unfold DmrBridge.isChallenge isAck
    decide
  accepted := by
    unfold isAck
    decide
  configured := by
    unfold isAck
    decide

def ignore (h : Handshake) (data : List UInt8) (hdata : ¬ isNak data ∧ ¬ DmrBridge.isChallenge data) : Handshake :=
  { h with
    ignored := h.ignored ++ [data]
    ignored_quiet := by
      intro other hother
      rcases List.mem_append.mp hother with hold | hnew
      · exact h.ignored_quiet other hold
      · rw [List.mem_singleton.mp hnew]
        exact hdata }

theorem greeting_ignore (h : Handshake) (data : List UInt8)
    (hdata : ¬ isNak data ∧ ¬ DmrBridge.isChallenge data) :
    (h.ignore data hdata).greeting = h.greeting ++ [.received data] := by
  simp [greeting, ignore]

theorem configuration_prefix (h : Handshake) : h.configuration <+: h.events := List.prefix_append ..

theorem proof_prefix (h : Handshake) : h.proof <+: h.events :=
  (List.prefix_append ..).trans h.configuration_prefix

theorem greeting_prefix (h : Handshake) : h.greeting <+: h.events :=
  (List.prefix_append ..).trans h.proof_prefix

end Handshake

/-! ## Attempts -/

def ClientEvent.isTraffic : ClientEvent → Bool
  | .sent .ping _ | .sent (.dmrd _) _ | .received _ | .forwarded _ => true
  | .sent .rptl _ | .sent (.rptk _) _ | .sent .rptc _ | .sent .rptcl _ | .reset => false

/-- The events of an attempt that is over, without a session and with one. -/
inductive Attempted : Bool → List ClientEvent → Prop where
  | unopened (h : Handshake) {done last : List ClientEvent} (hdone : done <+: h.events)
      (hlast : Client.Offence last) : Attempted false (done ++ last)
  | opened (h : Handshake) {body : List ClientEvent} (hbody : ∀ e ∈ body, e.isTraffic = true) (ok : Bool) :
      Attempted true (h.events ++ .reset :: body ++ [.sent .rptcl ok])

def InSession (events : List ClientEvent) : Prop :=
  ∃ h : Handshake, ∃ body, events = h.events ++ .reset :: body ∧ ∀ e ∈ body, e.isTraffic = true

theorem inSession_append {events last : List ClientEvent} (h : InSession events)
    (hlast : ∀ e ∈ last, e.isTraffic = true) : InSession (events ++ last) := by
  obtain ⟨shake, body, rfl, hbody⟩ := h
  refine ⟨shake, body ++ last, by simp, fun e he => ?_⟩
  rcases List.mem_append.mp he with hold | hnew
  · exact hbody e hold
  · exact hlast e hnew

def ClientPhase.Progress : ClientPhase → List ClientEvent → Prop
  | .connecting, events | .backoff _, events => events = []
  | .login _, events => ∃ h : Handshake, events = h.greeting
  | .auth _, events => ∃ h : Handshake, events = h.proof
  | .configuring _, events => ∃ h : Handshake, events = h.configuration
  | .draining, events | .notifying, events => ∃ h : Handshake, events = h.events
  | .session .., events | .forwarding .., events => InSession events
  | .returned, events => ∃ authed, Attempted authed events

namespace Client

variable {C : ClientConfig} {c t : Client} {os : Os} {a : ClientAction}

structure Said (c : Client) : Prop where
  history : ∀ a ∈ c.history, Attempted a.authed a.events
  current : c.phase.Progress c.events

theorem said_failed {authed : Bool} (source : ConnectFailure) (h : ∀ a ∈ c.history, Attempted a.authed a.events)
    (hclosed : Attempted authed c.events) : Said (c.failed os authed source) := by
  unfold failed
  split
  · exact ⟨h, authed, hclosed⟩
  · refine ⟨fun a ha => ?_, rfl⟩
    rcases List.mem_append.mp ha with hold | hnew
    · exact h a hold
    · rw [List.mem_singleton.mp hnew]
      exact hclosed

/-- An attempt that fails in its handshake. -/
theorem Said.unopened (h : Said c) (hphase : c.phase.handshaking = true) {last : List ClientEvent}
    (hlast : Offence last) : Attempted false (c.events ++ last) := by
  have hcurrent := h.current
  cases hp : c.phase with
  | connecting =>
    rw [hp] at hcurrent
    rw [show c.events = [] from hcurrent]
    exact .unopened .plain List.nil_prefix hlast
  | login =>
    rw [hp] at hcurrent
    obtain ⟨shake, hevents⟩ := hcurrent
    rw [hevents]
    exact .unopened shake shake.greeting_prefix hlast
  | auth =>
    rw [hp] at hcurrent
    obtain ⟨shake, hevents⟩ := hcurrent
    rw [hevents]
    exact .unopened shake shake.proof_prefix hlast
  | configuring =>
    rw [hp] at hcurrent
    obtain ⟨shake, hevents⟩ := hcurrent
    rw [hevents]
    exact .unopened shake shake.configuration_prefix hlast
  | draining | notifying | session | forwarding | backoff | returned => simp [hp, ClientPhase.handshaking] at hphase

theorem said_leave {result : Except ConnectFailure Unit} (h : ∀ a ∈ c.history, Attempted a.authed a.events)
    (hsession : InSession c.events) : Said (c.leave os result) := by
  obtain ⟨shake, body, hevents, hbody⟩ := hsession
  have hclosed : Attempted true (c.log (.sent .rptcl os.closes)).events := by
    rw [log, hevents]
    exact .opened shake hbody os.closes
  unfold leave
  cases result with
  | ok => exact ⟨h, true, hclosed⟩
  | error source => exact said_failed source h hclosed

theorem Said.inSession (h : Said c) (hphase : c.phase.inSession = true) : InSession c.events := by
  have hcurrent := h.current
  cases hp : c.phase with
  | session | forwarding =>
    rw [hp] at hcurrent
    exact hcurrent
  | _ => simp [hp, ClientPhase.inSession] at hphase

theorem Said.stay (h : Said c) (hphase : c.phase.inSession = true) (last : List ClientEvent)
    (hlast : ∀ e ∈ last, e.isTraffic = true) (hnext : t.phase.inSession = true) (hevents : t.events = c.events ++ last)
    (hhistory : t.history = c.history) : Said t := by
  have hmore := inSession_append (h.inSession hphase) hlast
  refine ⟨fun a ha => h.history a (hhistory ▸ ha), ?_⟩
  rw [hevents]
  cases hp : t.phase with
  | session | forwarding => exact hmore
  | _ => simp [hp, ClientPhase.inSession] at hnext

theorem Said.leave (h : Said c) (hphase : c.phase.inSession = true) (u : Client) (last : List ClientEvent)
    (hlast : ∀ e ∈ last, e.isTraffic = true) (hevents : u.events = c.events ++ last)
    (hhistory : u.history = c.history) (result : Except ConnectFailure Unit) : Said (u.leave os result) := by
  apply said_leave
  · rw [hhistory]
    exact h.history
  · rw [hevents]
    exact inSession_append (h.inSession hphase) hlast

theorem said_step (h : Said c) (hturn : Turn C c os a t) : Said t := by
  have hcurrent := h.current
  cases hturn with
  | greet hphase =>
    rw [hphase] at hcurrent
    refine ⟨h.history, .plain, ?_⟩
    simp only [log, show c.events = [] from hcurrent]
    rfl
  | ignore hphase hnak hchallenge =>
    rw [hphase] at hcurrent
    obtain ⟨shake, hevents⟩ := hcurrent
    refine ⟨h.history, ?_⟩
    simp only [log, hphase]
    exact ⟨shake.ignore _ ⟨hnak, hchallenge⟩, by rw [hevents, Handshake.greeting_ignore]⟩
  | @prove deadline data hphase hchallenge =>
    rw [hphase] at hcurrent
    obtain ⟨shake, hevents⟩ := hcurrent
    refine ⟨h.history, { shake with challenge := data, isChallenge := hchallenge }, ?_⟩
    simp only [log, hevents, List.append_assoc]
    rfl
  | @configure deadline data hphase hack =>
    rw [hphase] at hcurrent
    obtain ⟨shake, hevents⟩ := hcurrent
    refine ⟨h.history, { shake with accept := data, accepted := hack }, ?_⟩
    simp only [log, hevents, List.append_assoc]
    rfl
  | @ready deadline data hphase hlive hack =>
    rw [hphase] at hcurrent
    obtain ⟨shake, hevents⟩ := hcurrent
    exact ⟨h.history, { shake with ready := data, configured := hack },
      congrArg (· ++ [ClientEvent.received data]) hevents⟩
  | refused last source hphase hlast => exact said_failed source h.history (h.unopened hphase hlast)
  | drained hphase =>
    rw [hphase] at hcurrent
    exact ⟨h.history, hcurrent⟩
  | opened hact hphase =>
    rw [hphase] at hcurrent
    obtain ⟨shake, hevents⟩ := hcurrent
    exact ⟨h.history, shake, [], congrArg (· ++ [ClientEvent.reset]) hevents, List.forall_mem_nil _⟩
  | ping hphase =>
    exact h.stay (by simp [hphase, ClientPhase.inSession]) [.sent .ping true] (by simp [ClientEvent.isTraffic]) rfl rfl
      rfl
  | unsentPing hphase =>
    exact h.leave (by simp [hphase, ClientPhase.inSession]) ((c.beat _).log _) [.sent .ping false]
      (by simp [ClientEvent.isTraffic]) rfl rfl _
  | lost hphase =>
    exact h.leave (by simp [hphase, ClientPhase.inSession]) (c.beat _) [] (List.forall_mem_nil _)
      (List.append_nil _).symm rfl _
  | @pong tracker nextTick data hphase | @inbound tracker nextTick data pkt hphase =>
    exact h.stay (by simp [hphase, ClientPhase.inSession]) [.received data] (by simp [ClientEvent.isTraffic]) rfl rfl
      rfl
  | @noise tracker nextTick data hphase =>
    have hsession : c.phase.inSession = true := by simp [hphase, ClientPhase.inSession]
    exact h.stay hsession [.received data] (by simp [ClientEvent.isTraffic]) hsession rfl rfl
  | @dismissed tracker nextTick data source hphase =>
    exact h.leave (by simp [hphase, ClientPhase.inSession]) (c.log _) [.received data]
      (by simp [ClientEvent.isTraffic]) rfl rfl _
  | @deliver tracker nextTick pkt hphase =>
    exact h.stay (by simp [hphase, ClientPhase.inSession]) [.forwarded pkt] (by simp [ClientEvent.isTraffic]) rfl rfl
      rfl
  | @send tracker nextTick pkt lanes hact hphase =>
    have hsession : c.phase.inSession = true := by simp [hphase, ClientPhase.inSession]
    exact h.stay hsession [.sent (.dmrd pkt) os.sends] (by simp [ClientEvent.isTraffic]) hsession rfl rfl
  | broken hphase =>
    exact h.leave (by simp [hphase, ClientPhase.inSession]) c [] (List.forall_mem_nil _) (List.append_nil _).symm rfl _
  | closed hphase => exact h.leave hphase c [] (List.forall_mem_nil _) (List.append_nil _).symm rfl _
  | quit hphase =>
    refine ⟨h.history, false, ?_⟩
    rcases hphase with hphase | ⟨wake, hphase⟩
    · rw [hphase] at hcurrent
      obtain ⟨shake, hevents⟩ := hcurrent
      have hclosed := Attempted.unopened shake (List.prefix_refl _) offence_nil
      rw [List.append_nil, ← hevents] at hclosed
      exact hclosed
    · rw [hphase] at hcurrent
      have hclosed := Attempted.unopened .plain List.nil_prefix offence_nil
      rw [List.append_nil, ← show c.events = [] from hcurrent] at hclosed
      exact hclosed
  | wake hphase =>
    rw [hphase] at hcurrent
    exact ⟨h.history, hcurrent⟩
  | other => exact ⟨h.history, hcurrent⟩

/-- Whatever the master sends and however the calls of the socket end, each attempt is a handshake as far as it goes,
and only one that goes through has a session, which a NetworkReset opens and an RPTCL closes. -/
theorem dialogue (C : ClientConfig) (as : List (Os × ClientAction)) (t : Client)
    (hrun : runs (step C) start as = some t) :
    (∀ a ∈ t.history, Attempted a.authed a.events) ∧ t.phase.Progress t.events := by
  have hinit : Said start := ⟨List.forall_mem_nil _, rfl⟩
  have hsaid := runs_keep (fun _ _ _ h hstep => said_step h (step_turn hstep)) hinit hrun
  exact ⟨hsaid.history, hsaid.current⟩

/-- A session that is lost, and the attempt after it, which the master refuses. -/
theorem dialogue_sample :
    ∃ t, runs (step sampleConfig) start
        (login ++ unanswered ++ [(onTime 1035, .wake), (onTime 1036, .connected), (onTime 1037, .recv tagMstnak)]) =
          some t ∧
      t.history.map (·.authed) = [true, false] ∧
      (∀ a ∈ t.history, Attempted a.authed a.events) ∧ t.phase.Progress t.events := by
  have hrun : (runs (step sampleConfig) start (login ++ unanswered ++
      [(onTime 1035, .wake), (onTime 1036, .connected), (onTime 1037, .recv tagMstnak)])).any
        (fun t => decide (t.history.map (·.authed) = [true, false])) = true := by decide +kernel
  obtain ⟨t, ht, hhistory⟩ := (Option.any_eq_true ..).mp hrun
  exact ⟨t, ht, of_decide_eq_true hhistory, dialogue sampleConfig _ t ht⟩

end Client

end DmrBridge
