import DmrBridge.HomebrewDialogue

/-!
# Attempts, sessions and the clock

How long the client waits before it comes back, what it hands to `voice_task`, how often it pings and
when it gives its master up.
-/

open Run

namespace DmrBridge

namespace Client

variable {C : ClientConfig} {c s t u : Client} {os : Os} {a : ClientAction}

/-! ## Backoff -/

/-- Attempts since the last one with a session, that one included. -/
def failures (authed : List Bool) : Nat := authed.foldl (fun n authed => if authed then 1 else n + 1) 0

@[simp]
theorem failures_snoc (flags : List Bool) (authed : Bool) :
    failures (flags ++ [authed]) = if authed then 1 else failures flags + 1 := by
  simp [failures]

/-- The delay after an attempt that follows `earlier` ones. -/
def delayAfter (earlier : List Attempt) (authed : Bool) : Duration :=
  if authed then backoffInitial else min (backoffInitial * 2 ^ failures (earlier.map (·.authed))) backoffMax

/-- The backoff of the next attempt to fail; asleep, it is still that of the last one. -/
structure Paced (c : Client) : Prop where
  awake : c.phase ≠ .returned → (∀ wake, c.phase ≠ .backoff wake) →
    c.backoff.current = min (backoffInitial * 2 ^ failures (c.history.map (·.authed))) backoffMax
  asleep : ∀ wake, c.phase = .backoff wake →
    c.backoff.double.current = min (backoffInitial * 2 ^ failures (c.history.map (·.authed))) backoffMax

theorem double_delay (b : ReconnectBackoff) (n : Nat) (h : b.current = min (backoffInitial * 2 ^ n) backoffMax) :
    b.double.current = min (backoffInitial * 2 ^ (n + 1)) backoffMax := by
  have hpow : backoffInitial * 2 ^ (n + 1) = backoffInitial * 2 ^ n * 2 := by rw [pow_succ, Nat.mul_assoc]
  unfold ReconnectBackoff.double
  rw [h, hpow]
  generalize backoffInitial * 2 ^ n = delay
  unfold Duration at *
  dsimp only
  omega

theorem failed_cases (c : Client) (os : Os) (authed : Bool) (source : ConnectFailure) :
    c.failed os authed source = { c with phase := .returned } ∨
      ∃ backoff, backoff = (if authed then c.backoff.reset else c.backoff) ∧
        c.failed os authed source = { c with
          phase := .backoff (os.now + backoff.current)
          backoff
          history := c.history ++ [⟨c.events, c.opened, c.pulse, authed, source, backoff.current⟩]
          events := []
          opened := none
          pulse := [] } := by
  unfold failed
  split
  · exact .inl rfl
  · exact .inr ⟨_, rfl, rfl⟩

theorem paced_failed (authed : Bool) (source : ConnectFailure)
    (h : c.backoff.current = min (backoffInitial * 2 ^ failures (c.history.map (·.authed))) backoffMax) :
    Paced (c.failed os authed source) := by
  rcases failed_cases c os authed source with heq | ⟨backoff, hbackoff, heq⟩
  · rw [heq]
    exact ⟨fun hlive => absurd rfl hlive, by simp⟩
  · rw [heq]
    refine ⟨fun _ hawake => absurd rfl (hawake _), fun _ _ => ?_⟩
    rw [List.map_append, List.map_singleton, failures_snoc]
    cases authed with
    | true =>
      rw [hbackoff]
      rfl
    | false =>
      rw [hbackoff]
      exact double_delay c.backoff _ h

theorem paced_leave (result : Except ConnectFailure Unit)
    (h : c.backoff.current = min (backoffInitial * 2 ^ failures (c.history.map (·.authed))) backoffMax) :
    Paced (c.leave os result) := by
  unfold leave
  cases result with
  | ok => exact ⟨fun hlive => absurd rfl hlive, by simp⟩
  | error source => exact paced_failed true source h

theorem Paced.stay (h : Paced c) (hphase : c.phase.handshaking = true ∨ c.phase = .draining ∨ c.phase = .notifying ∨
    c.phase.inSession = true) :
    c.backoff.current = min (backoffInitial * 2 ^ failures (c.history.map (·.authed))) backoffMax := by
  apply h.awake
  · rintro hp
    simp [hp, ClientPhase.handshaking, ClientPhase.inSession] at hphase
  · rintro wake hp
    simp [hp, ClientPhase.handshaking, ClientPhase.inSession] at hphase

theorem paced_of_awake
    (hbackoff : t.backoff.current = min (backoffInitial * 2 ^ failures (t.history.map (·.authed))) backoffMax)
    (hphase : ∀ wake, t.phase ≠ .backoff wake) : Paced t :=
  ⟨fun _ _ => hbackoff, fun wake hp => absurd hp (hphase wake)⟩

theorem paced_step (h : Paced c) (hturn : Turn C c os a t) : Paced t := by
  cases hturn with
  | greet hphase => exact paced_of_awake (h.stay (by simp [hphase, ClientPhase.handshaking])) (by simp)
  | ignore hphase => exact paced_of_awake (h.stay (by simp [hphase, ClientPhase.handshaking])) (by simp [log, hphase])
  | prove hphase | configure hphase | ready hphase =>
    exact paced_of_awake (h.stay (by simp [hphase, ClientPhase.handshaking])) (by simp)
  | refused last source hphase => exact paced_failed _ _ (h.stay (.inl hphase))
  | drained hphase => exact paced_of_awake (h.stay (.inr (.inl hphase))) (by simp)
  | opened hact hphase => exact paced_of_awake (h.stay (.inr (.inr (.inl hphase)))) (by simp [openSession])
  | ping hphase | pong hphase | inbound hphase | deliver hphase =>
    exact paced_of_awake (h.stay (by simp [hphase, ClientPhase.inSession])) (by simp)
  | noise hphase | send _ hphase =>
    exact paced_of_awake (h.stay (by simp [hphase, ClientPhase.inSession])) (by simp [log, hphase])
  | unsentPing hphase | lost hphase | dismissed hphase | broken hphase =>
    exact paced_leave _ (h.stay (by simp [hphase, ClientPhase.inSession]))
  | closed hphase => exact paced_leave _ (h.stay (.inr (.inr (.inr hphase))))
  | quit => exact ⟨fun hlive => absurd rfl hlive, by simp⟩
  | wake hphase => exact paced_of_awake (h.asleep _ hphase) (by simp)
  | other => exact ⟨h.awake, h.asleep⟩

theorem paced_run {as : List (Os × ClientAction)} (hrun : runs (step C) start as = some t) : Paced t := by
  have hinit : Paced start := paced_of_awake rfl (by simp [start])
  exact runs_keep (fun _ _ _ h hstep => paced_step h (step_turn hstep)) hinit hrun

theorem history_of_failed {authed : Bool} {source : ConnectFailure} {x : Attempt}
    (hbackoff : c.backoff.current = min (backoffInitial * 2 ^ failures (c.history.map (·.authed))) backoffMax)
    (h : (c.failed os authed source).history = c.history ++ [x]) :
    (c.failed os authed source).phase = .backoff (os.now + delayAfter c.history x.authed) := by
  rcases failed_cases c os authed source with heq | ⟨backoff, hused, heq⟩
  · rw [heq] at h
    simp at h
  · rw [heq] at h ⊢
    obtain rfl := List.singleton_injective (List.append_cancel_left h)
    unfold delayAfter
    cases authed with
    | true => rw [hused]; rfl
    | false => rw [← hbackoff, hused]; rfl

theorem history_of_leave {result : Except ConnectFailure Unit} {x : Attempt}
    (hbackoff : c.backoff.current = min (backoffInitial * 2 ^ failures (c.history.map (·.authed))) backoffMax)
    (h : (c.leave os result).history = c.history ++ [x]) :
    (c.leave os result).phase = .backoff (os.now + delayAfter c.history x.authed) := by
  unfold leave at h ⊢
  cases result with
  | ok => simp [log] at h
  | error source => exact history_of_failed (c := c.log _) hbackoff h

/-- An attempt that fails puts the client to sleep. -/
theorem asleep_of_turn (h : Paced c) (hturn : Turn C c os a t) {x : Attempt} (hfailed : t.history = c.history ++ [x]) :
    t.phase = .backoff (os.now + delayAfter c.history x.authed) := by
  have hsame : t.history ≠ c.history := by simp [hfailed]
  cases hturn with
  | refused last source hphase =>
    exact history_of_failed (c := { c with events := c.events ++ last }) (h.stay (.inl hphase)) hfailed
  | unsentPing hphase =>
    exact history_of_leave (c := (c.beat _).log _) (h.stay (by simp [hphase, ClientPhase.inSession])) hfailed
  | lost hphase => exact history_of_leave (c := c.beat _) (h.stay (by simp [hphase, ClientPhase.inSession])) hfailed
  | dismissed hphase => exact history_of_leave (c := c.log _) (h.stay (by simp [hphase, ClientPhase.inSession])) hfailed
  | broken hphase => exact history_of_leave (h.stay (by simp [hphase, ClientPhase.inSession])) hfailed
  | closed hphase => exact history_of_leave (h.stay (.inr (.inr (.inr hphase)))) hfailed
  | _ => exact absurd rfl hsame

theorem turn_asleep {wake : Instant} (hphase : c.phase = .backoff wake) (hturn : Turn C c os a t) :
    t.phase = .backoff wake ∨ t.phase = .returned ∨ wake ≤ os.now := by
  cases hturn with
  | quit => exact .inr (.inl rfl)
  | wake hp htime =>
    rw [hphase] at hp
    cases hp
    exact .inr (.inr htime)
  | other => exact .inl hphase
  | refused last source hp | closed hp => simp [hphase, ClientPhase.handshaking, ClientPhase.inSession] at hp
  | greet hp | ignore hp | prove hp | configure hp | ready hp | drained hp | opened _ hp | ping hp | unsentPing hp
  | lost hp | pong hp | inbound hp | noise hp | dismissed hp | deliver hp | send _ hp | broken hp =>
    rw [hphase] at hp
    cases hp

theorem turn_returned (hphase : c.phase = .returned) (hturn : Turn C c os a t) : t.phase = .returned := by
  cases hturn with
  | quit => rfl
  | other => exact hphase
  | refused last source hp | closed hp => simp [hphase, ClientPhase.handshaking, ClientPhase.inSession] at hp
  | greet hp | ignore hp | prove hp | configure hp | ready hp | drained hp | opened _ hp | ping hp | unsentPing hp
  | lost hp | pong hp | inbound hp | noise hp | dismissed hp | deliver hp | send _ hp | broken hp | wake hp =>
    rw [hphase] at hp
    cases hp

/-- It sleeps until a step that comes late enough. -/
theorem asleep_run {wake : Instant} (hphase : c.phase = .backoff wake) {as : List (Os × ClientAction)}
    (hrun : runs (step C) c as = some t) :
    t.phase = .backoff wake ∨ t.phase = .returned ∨ ∃ a ∈ as, wake ≤ a.1.now := by
  induction as using List.reverseRecOn generalizing t with
  | nil =>
    cases hrun
    exact .inl hphase
  | append_singleton as a ih =>
    rw [runs_snoc] at hrun
    obtain ⟨u, hu, hstep⟩ := Option.bind_eq_some_iff.mp hrun
    have hturn : Turn C u a.1 a.2 t := step_turn hstep
    rcases ih hu with hasleep | hreturned | ⟨b, hb, hlate⟩
    · rcases turn_asleep hasleep hturn with h | h | h
      · exact .inl h
      · exact .inr (.inl h)
      · exact .inr (.inr ⟨a, List.mem_append_right _ (List.mem_singleton.mpr rfl), h⟩)
    · exact .inr (.inl (turn_returned hreturned hturn))
    · exact .inr (.inr ⟨b, List.mem_append_left _ hb, hlate⟩)

/-- The clock of the process does not go back. -/
def Timely (as : List (Os × ClientAction)) : Prop := (as.map (·.1.now)).Pairwise (· ≤ ·)

/-- The next RPTL after a failure waits for the delay: 1 s after an attempt with a session, doubled with each further
attempt, and 60 s at most. -/
theorem reconnect_delay (C : ClientConfig) (pre mid : List (Os × ClientAction)) (os os' : Os) (a : ClientAction)
    (c s u t : Client) (x : Attempt) (hpre : runs (step C) start pre = some c) (hstep : step C c (os, a) = some s)
    (hfailed : s.history = c.history ++ [x]) (hmid : runs (step C) s mid = some u)
    (hnext : step C u (os', .connected) = some t) (hclock : Timely ((os, a) :: mid ++ [(os', .connected)])) :
    os.now + delayAfter c.history x.authed ≤ os'.now := by
  have hasleep := asleep_of_turn (paced_run hpre) (step_turn hstep) hfailed
  have hawake : u.phase = .connecting := by
    cases hp : u.phase with
    | connecting => rfl
    | _ => simp [step, hp] at hnext
  rcases asleep_run hasleep hmid with hp | hp | ⟨b, hb, hlate⟩
  · rw [hp] at hawake
    cases hawake
  · rw [hp] at hawake
    cases hawake
  · unfold Timely at hclock
    rw [List.map_append, List.pairwise_append] at hclock
    have hle := hclock.2.2 b.1.now (List.mem_map.mpr ⟨b, List.mem_cons_of_mem _ hb, rfl⟩) os'.now (by simp)
    exact Nat.le_trans hlate hle

theorem reconnect_delay_sample :
    ∃ c s u t x, runs (step sampleConfig) start (login ++ unanswered.dropLast) = some c ∧
      step sampleConfig c (onTime 35, .tick) = some s ∧ s.history = c.history ++ [x] ∧ x.authed = true ∧
      runs (step sampleConfig) s [(onTime 1035, .wake)] = some u ∧
      step sampleConfig u (onTime 1036, .connected) = some t ∧ 35 + delayAfter c.history x.authed ≤ 1036 := by
  have hrun : (runs (step sampleConfig) start (login ++ unanswered.dropLast)).any (fun c =>
      (step sampleConfig c (onTime 35, .tick)).any fun s =>
        s.history.getLast?.any (fun x => decide (s.history = c.history ++ [x] ∧ x.authed = true)) &&
          (runs (step sampleConfig) s [(onTime 1035, .wake)]).any fun u =>
            (step sampleConfig u (onTime 1036, .connected)).isSome) = true := by decide +kernel
  obtain ⟨c, hc, hrest⟩ := (Option.any_eq_true ..).mp hrun
  obtain ⟨s, hs, hrest⟩ := (Option.any_eq_true ..).mp hrest
  obtain ⟨hlast, hmid⟩ := (Bool.and_eq_true ..).mp hrest
  obtain ⟨x, -, hx⟩ := (Option.any_eq_true ..).mp hlast
  obtain ⟨hhistory, hauthed⟩ := of_decide_eq_true hx
  obtain ⟨u, hu, hnext⟩ := (Option.any_eq_true ..).mp hmid
  obtain ⟨t, ht⟩ := Option.isSome_iff_exists.mp hnext
  refine ⟨c, s, u, t, x, hc, hs, hhistory, hauthed, hu, ht, ?_⟩
  exact reconnect_delay sampleConfig _ _ (onTime 35) (onTime 1036) .tick c s u t x hc hs hhistory hu ht
    (by unfold Timely; decide)

end Client

/-! ## Packets for the voice task -/

def ClientEvent.inbound : ClientEvent → Option Dmrd
  | .received data =>
    match classify data with
    | .dmrd pkt => some pkt
    | _ => none
  | _ => none

/-- The DMRD that the master sends in the session of an attempt. -/
def offered : List ClientEvent → List Dmrd
  | [] => []
  | .reset :: body => body.filterMap ClientEvent.inbound
  | _ :: events => offered events

theorem offered_append {pre : List ClientEvent} (h : ∀ e ∈ pre, e ≠ .reset) (post : List ClientEvent) :
    offered (pre ++ post) = offered post := by
  induction pre with
  | nil => rfl
  | cons e pre ih =>
    have hpre := ih fun other hother => h other (List.mem_cons_of_mem _ hother)
    cases e with
    | reset => exact absurd rfl (h .reset List.mem_cons_self)
    | sent | received | forwarded => exact hpre

theorem reset_notMem_events (h : Handshake) : ∀ e ∈ h.events, e ≠ .reset := by
  rintro e he rfl
  simp [Handshake.events, Handshake.configuration, Handshake.proof, Handshake.greeting] at he

theorem offered_session (h : Handshake) (body : List ClientEvent) :
    offered (h.events ++ .reset :: body) = body.filterMap ClientEvent.inbound :=
  offered_append (reset_notMem_events h) _

theorem offered_inSession {events : List ClientEvent} (h : InSession events) (last : List ClientEvent) :
    offered (events ++ last) = offered events ++ last.filterMap ClientEvent.inbound := by
  obtain ⟨shake, body, rfl, -⟩ := h
  rw [List.append_assoc, List.cons_append, offered_session, offered_session, List.filterMap_append]

theorem offered_of_begun {h : Handshake} {done : List ClientEvent} (hdone : done <+: h.events)
    (last : List ClientEvent) : offered (done ++ last) = offered last :=
  offered_append (fun e he => reset_notMem_events h e (hdone.mem he)) last

theorem offered_offence {last : List ClientEvent} (h : Client.Offence last) : offered last = [] := by
  obtain ⟨received, unsent, rfl⟩ := h
  cases received <;> cases unsent <;> rfl

theorem offered_unopened {events : List ClientEvent} (h : Attempted false events) : offered events = [] := by
  cases h with
  | unopened shake hdone hlast => rw [offered_of_begun hdone, offered_offence hlast]

theorem inbound_received {data : List UInt8} (h : ∀ pkt, classify data ≠ .dmrd pkt) :
    (ClientEvent.received data).inbound = none := by
  cases hdata : classify data with
  | dmrd pkt => exact absurd hdata (h pkt)
  | _ => simp [ClientEvent.inbound, hdata]

/-- In `dmrd_tx.send`. -/
def ClientPhase.holding : ClientPhase → List Dmrd
  | .forwarding _ _ pkt => [pkt]
  | _ => []

namespace Client

variable {C : ClientConfig} {c s t u : Client} {os : Os} {a : ClientAction}

/-- All DMRD of all sessions, in order. -/
def offers (c : Client) : List Dmrd := c.history.flatMap (offered ·.events) ++ offered c.events

/-- All but a packet that is dropped with the client's end of the channel. -/
def Handed (c : Client) : Prop :=
  ∃ dropped, c.taken ++ c.dmrdIn ++ c.phase.holding ++ dropped = c.offers ∧
    (dropped ≠ [] → c.phase = .returned ∧ dropped.length = 1)

theorem handed_of_eq (h : c.taken ++ c.dmrdIn ++ c.phase.holding = c.offers) : Handed c :=
  ⟨[], by rw [List.append_nil, h], by simp⟩

theorem handed_failed {authed : Bool} {source : ConnectFailure} (h : c.taken ++ c.dmrdIn = c.offers) :
    Handed (c.failed os authed source) := by
  apply handed_of_eq
  rcases failed_cases c os authed source with heq | ⟨backoff, -, heq⟩
  · rw [heq]
    simpa [ClientPhase.holding, offers] using h
  · rw [heq]
    simpa [ClientPhase.holding, offers, offered] using h

theorem offers_append (h : InSession c.events) (last : List ClientEvent) (hevents : t.events = c.events ++ last)
    (hhistory : t.history = c.history) : t.offers = c.offers ++ last.filterMap ClientEvent.inbound := by
  unfold offers
  rw [hevents, hhistory, offered_inSession h, List.append_assoc]

theorem offers_unopened {u : Client} (h : Attempted false u.events) (hhistory : u.history = c.history)
    (hbefore : offered c.events = []) : u.offers = c.offers := by
  unfold offers
  rw [hhistory, hbefore, offered_unopened h]

theorem Handed.live (h : Handed c) (hphase : c.phase ≠ .returned) :
    c.taken ++ c.dmrdIn ++ c.phase.holding = c.offers := by
  obtain ⟨dropped, hall, hdropped⟩ := h
  cases dropped with
  | nil => rwa [List.append_nil] at hall
  | cons pkt dropped => exact absurd (hdropped (by simp)).1 hphase

/-- A session that ends with an error has nothing in hand. -/
theorem handed_leave (h : Handed c) (hsession : InSession c.events) {tracker : KeepaliveTracker} {nextTick : Instant}
    (hphase : c.phase = .session tracker nextTick) (u : Client) (last : List ClientEvent)
    (hlast : last.filterMap ClientEvent.inbound = []) (hevents : u.events = c.events ++ last)
    (hhistory : u.history = c.history) (hqueue : u.taken ++ u.dmrdIn = c.taken ++ c.dmrdIn)
    (source : ConnectFailure) : Handed (u.leave os (.error source)) := by
  have hlive := h.live (by simp [hphase])
  rw [hphase] at hlive
  apply handed_failed
  have hoffers := offers_append (t := u.log (.sent .rptcl os.closes)) hsession (last ++ [.sent .rptcl os.closes])
    (by simp [log, hevents]) hhistory
  have hbye : [ClientEvent.sent .rptcl os.closes].filterMap ClientEvent.inbound = [] := rfl
  rw [hoffers, List.filterMap_append, hlast, hbye, ← hlive]
  simpa [log, ClientPhase.holding] using hqueue

theorem Said.unoffered (h : Said c) (hphase : c.phase.handshaking = true ∨ c.phase = .draining ∨ c.phase = .notifying) :
    offered c.events = [] := by
  rcases hphase with hphase | hphase
  · have hopen := offered_unopened (h.unopened hphase offence_nil)
    rwa [List.append_nil] at hopen
  · have hevents : ∃ shake : Handshake, c.events = shake.events := by
      have hcurrent := h.current
      rcases hphase with hp | hp <;>
        rwa [hp] at hcurrent
    obtain ⟨shake, hevents⟩ := hevents
    rw [hevents, ← List.append_nil shake.events, offered_of_begun (List.prefix_refl _)]
    rfl

/-- Within a session a packet goes from the socket into the client's hand, and from there into the queue. -/
theorem Handed.stay (h : Handed c) (hsaid : Said c) (hphase : c.phase.inSession = true) (last : List ClientEvent)
    (hevents : t.events = c.events ++ last) (hhistory : t.history = c.history)
    (hqueue : t.taken ++ t.dmrdIn ++ t.phase.holding =
      c.taken ++ c.dmrdIn ++ c.phase.holding ++ last.filterMap ClientEvent.inbound) : Handed t := by
  have hlive := h.live (by rintro hp; simp [hp, ClientPhase.inSession] at hphase)
  apply handed_of_eq
  rw [hqueue, hlive, offers_append (hsaid.inSession hphase) last hevents hhistory]

/-- Nothing is offered before the session. -/
theorem Handed.shake (h : Handed c) (hsaid : Said c)
    (hphase : c.phase.handshaking = true ∨ c.phase = .draining ∨ c.phase = .notifying) (hevents : offered t.events = [])
    (hhistory : t.history = c.history) (hqueue : t.taken ++ t.dmrdIn = c.taken ++ c.dmrdIn)
    (hholding : t.phase.holding = []) : Handed t := by
  have hlive := h.live (by rintro hp; simp [hp, ClientPhase.handshaking] at hphase)
  have hnone : c.phase.holding = [] := by
    cases hp : c.phase with
    | forwarding => simp [hp, ClientPhase.handshaking] at hphase
    | _ => rfl
  apply handed_of_eq
  rw [hqueue, hholding, ← hnone, hlive]
  unfold offers
  rw [hhistory, hevents, hsaid.unoffered hphase]

theorem handed_step (hsaid : Said c) (h : Handed c) (hturn : Turn C c os a t) : Handed t := by
  have hnext := said_step hsaid hturn
  cases hturn with
  | greet hphase =>
    exact h.shake hsaid (by simp [hphase, ClientPhase.handshaking])
      (hnext.unoffered (by simp [ClientPhase.handshaking])) rfl rfl rfl
  | ignore hphase =>
    have hstage : c.phase.handshaking = true := by simp [hphase, ClientPhase.handshaking]
    exact h.shake hsaid (.inl hstage) (hnext.unoffered (.inl hstage)) rfl rfl
      (by simp [log, hphase, ClientPhase.holding])
  | prove hphase | configure hphase | ready hphase =>
    exact h.shake hsaid (by simp [hphase, ClientPhase.handshaking])
      (hnext.unoffered (by simp [ClientPhase.handshaking])) rfl rfl rfl
  | refused last source hphase hlast =>
    have hopen := hsaid.unopened hphase hlast
    have hlive := h.live (by rintro hp; simp [hp, ClientPhase.handshaking] at hphase)
    have hnone : c.phase.holding = [] := by
      cases hp : c.phase with
      | forwarding => simp [hp, ClientPhase.handshaking] at hphase
      | _ => rfl
    rw [hnone, List.append_nil] at hlive
    have hoffers := offers_unopened (c := c) (u := { c with events := c.events ++ last }) hopen rfl
      (hsaid.unoffered (.inl hphase))
    exact handed_failed (hlive.trans hoffers.symm)
  | drained hphase => exact h.shake hsaid (by simp [hphase]) (hsaid.unoffered (by simp [hphase])) rfl rfl rfl
  | opened hact hphase =>
    have hcurrent := hsaid.current
    rw [hphase] at hcurrent
    obtain ⟨shake, hevents⟩ := hcurrent
    refine h.shake hsaid (by simp [hphase]) ?_ rfl rfl rfl
    change offered (c.events ++ [.reset]) = []
    rw [hevents, offered_session]
    rfl
  | unsentPing hphase =>
    have hsession := hsaid.inSession (by simp [hphase, ClientPhase.inSession])
    exact handed_leave h hsession hphase ((c.beat _).log _) [.sent .ping false] rfl rfl rfl rfl _
  | lost hphase =>
    have hsession := hsaid.inSession (by simp [hphase, ClientPhase.inSession])
    exact handed_leave h hsession hphase (c.beat _) [] rfl (List.append_nil _).symm rfl rfl _
  | @dismissed tracker nextTick data source hphase hdata =>
    have hsession := hsaid.inSession (by simp [hphase, ClientPhase.inSession])
    have hnone : [ClientEvent.received data].filterMap ClientEvent.inbound = [] := by
      simp [inbound_received hdata]
    exact handed_leave h hsession hphase (c.log _) [.received data] hnone rfl rfl rfl _
  | broken hphase =>
    have hsession := hsaid.inSession (by simp [hphase, ClientPhase.inSession])
    exact handed_leave h hsession hphase c [] rfl (List.append_nil _).symm rfl rfl _
  | ping hphase =>
    exact h.stay hsaid (by simp [hphase, ClientPhase.inSession]) [.sent .ping true] rfl rfl
      (by simp [hphase, ClientPhase.holding, log, beat, ClientEvent.inbound])
  | @pong tracker nextTick data hphase hdata =>
    exact h.stay hsaid (by simp [hphase, ClientPhase.inSession]) [.received data] rfl rfl
      (by simp [hphase, ClientPhase.holding, log, beat, ClientEvent.inbound, hdata])
  | @inbound tracker nextTick data pkt hphase hdata =>
    exact h.stay hsaid (by simp [hphase, ClientPhase.inSession]) [.received data] rfl rfl
      (by simp [hphase, ClientPhase.holding, log, ClientEvent.inbound, hdata])
  | @noise tracker nextTick data hphase hpong hdata =>
    exact h.stay hsaid (by simp [hphase, ClientPhase.inSession]) [.received data] rfl rfl
      (by simp [hphase, ClientPhase.holding, log, inbound_received hdata])
  | @deliver tracker nextTick pkt hphase =>
    exact h.stay hsaid (by simp [hphase, ClientPhase.inSession]) [.forwarded pkt] rfl rfl
      (by simp [hphase, ClientPhase.holding, log, ClientEvent.inbound])
  | @send tracker nextTick pkt lanes hact hphase =>
    exact h.stay hsaid (by simp [hphase, ClientPhase.inSession]) [.sent (.dmrd pkt) os.sends] rfl rfl
      (by simp [hphase, ClientPhase.holding, log, ClientEvent.inbound])
  | closed hphase =>
    have hsession := hsaid.inSession hphase
    have hlive := h.live (by rintro hp; simp [hp, ClientPhase.inSession] at hphase)
    have hoffers := offers_append (t := c.log (.sent .rptcl os.closes)) hsession [.sent .rptcl os.closes] rfl rfl
    refine ⟨c.phase.holding, ?_, fun hheld => ⟨rfl, ?_⟩⟩
    · have hbye : [ClientEvent.sent .rptcl os.closes].filterMap ClientEvent.inbound = [] := rfl
      rw [hbye, List.append_nil, ← hlive] at hoffers
      simpa [leave, ClientPhase.holding, log, offers] using hoffers.symm
    · cases hp : c.phase with
      | forwarding => rfl
      | _ => simp [hp, ClientPhase.holding] at hheld
  | quit hphase =>
    apply handed_of_eq
    have hlive := h.live (by rintro hp; simp [hp] at hphase)
    have hnone : c.phase.holding = [] := by
      rcases hphase with hp | ⟨wake, hp⟩ <;> rw [hp] <;> rfl
    rwa [hnone] at hlive
  | wake hphase =>
    apply handed_of_eq
    have hlive := h.live (by simp [hphase])
    rwa [hphase] at hlive
  | other lanes control dmrdIn taken cancelled voiceGone hother hsent htaken =>
    obtain ⟨dropped, hall, hdropped⟩ := h
    refine ⟨dropped, ?_, hdropped⟩
    rw [← htaken] at hall
    exact hall

/-- What the master sends in its sessions reaches `voice_task` in order, each packet once, across all reconnects. Only
a packet in the client's hand when `voice_task` is gone is dropped. -/
theorem inbound_order (C : ClientConfig) (as : List (Os × ClientAction)) (t : Client)
    (hrun : runs (step C) start as = some t) : Handed t := by
  have hinit : Said start ∧ Handed start := ⟨⟨List.forall_mem_nil _, rfl⟩, handed_of_eq rfl⟩
  have hkeep (c : Client) (e : Os × ClientAction) (d : Client) (h : Said c ∧ Handed c) (hstep : step C c e = some d) :
      Said d ∧ Handed d :=
    ⟨said_step h.1 (step_turn hstep), handed_step h.1 h.2 (step_turn hstep)⟩
  exact (runs_keep hkeep hinit hrun).2

def samplePacket : List UInt8 :=
  dmrdMagic ++ [0, 0, 0, 1, 0, 0, 9, 0, 0, 0, 2, 0, 0, 0, 0, 0] ++ List.replicate dmrDataSize 0

theorem inbound_order_sample :
    ∃ t, runs (step sampleConfig) start
        (login ++ [(onTime 6, .recv samplePacket), (onTime 7, .deliver), (onTime 8, .takeDmrd),
          (onTime 9, .recv samplePacket)]) = some t ∧
      t.taken.length = 1 ∧ t.offers.length = 2 ∧ Handed t := by
  have hrun : (runs (step sampleConfig) start (login ++ [(onTime 6, .recv samplePacket), (onTime 7, .deliver),
      (onTime 8, .takeDmrd), (onTime 9, .recv samplePacket)])).any
        (fun t => decide (t.taken.length = 1 ∧ t.offers.length = 2)) = true := by decide +kernel
  obtain ⟨t, ht, hcounts⟩ := (Option.any_eq_true ..).mp hrun
  obtain ⟨htaken, hoffers⟩ := of_decide_eq_true hcounts
  exact ⟨t, ht, htaken, hoffers, inbound_order sampleConfig _ t ht⟩

end Client

end DmrBridge
