import DmrBridge.HomebrewSession

/-!
# Pings and the verdict on the master

The pulse of a session is what its tracker was told. The spacing of the pings and the end of the session
are read off it.
-/

open Run

namespace DmrBridge

def tickTimes (pulse : List KeepaliveEvent) : List Instant := (pulse.filter (·.isTick)).map (·.time)

@[simp]
theorem tickTimes_tick (pulse : List KeepaliveEvent) (now : Instant) :
    tickTimes (pulse ++ [.tick now]) = tickTimes pulse ++ [now] := by
  simp [tickTimes, KeepaliveEvent.isTick, KeepaliveEvent.time]

@[simp]
theorem tickTimes_pong (pulse : List KeepaliveEvent) (now : Instant) :
    tickTimes (pulse ++ [.pong now]) = tickTimes pulse := by
  simp [tickTimes, KeepaliveEvent.isTick]

/-- Ticks keep their interval, but for the 5 ms within which the timer is on time. -/
structure Spaced (C : ClientConfig) (start : Instant) (pulse : List KeepaliveEvent) : Prop where
  first : ∀ now ∈ tickTimes pulse, start + C.keepaliveInterval ≤ now
  apart : (tickTimes pulse).Pairwise fun earlier later => earlier + C.keepaliveInterval ≤ later + 5

/-- The state of `keepalive_loop` in a session that opened at `start`; `past` has the readings that trackers got. -/
structure Beating (C : ClientConfig) (past : List Instant) (start : Instant) (pulse : List KeepaliveEvent)
    (tracker : KeepaliveTracker) (nextTick : Instant) : Prop where
  start_past : start ∈ past
  pulse_past : ∀ e ∈ pulse, e.time ∈ past
  clock : ClockAdvances start pulse
  tracked : runs KeepaliveTracker.step (.new C.keepaliveMissedLimit start) pulse = some tracker
  spaced : Spaced C start pulse
  first : start + C.keepaliveInterval ≤ nextTick
  next : ∀ now ∈ tickTimes pulse, now + C.keepaliveInterval ≤ nextTick + 5

section
variable {C : ClientConfig} {past : List Instant} {start nextTick now : Instant} {pulse : List KeepaliveEvent}
  {tracker tracker' : KeepaliveTracker}

theorem beating_new (C : ClientConfig) (past : List Instant) (start : Instant) :
    Beating C (past ++ [start]) start [] (.new C.keepaliveMissedLimit start) (start + C.keepaliveInterval) where
  start_past := List.mem_append_right _ (List.mem_singleton.mpr rfl)
  pulse_past := List.forall_mem_nil _
  clock := by simp [ClockAdvances]
  tracked := rfl
  spaced := ⟨by simp [tickTimes], by simp [tickTimes]⟩
  first := Nat.le_refl _
  next := by simp [tickTimes]

theorem Beating.later (h : Beating C past start pulse tracker nextTick) (more : List Instant) :
    Beating C (past ++ more) start pulse tracker nextTick :=
  { h with
    start_past := List.mem_append_left _ h.start_past
    pulse_past := fun e he => List.mem_append_left _ (h.pulse_past e he) }

theorem Beating.clock_snoc (h : Beating C past start pulse tracker nextTick) {e : KeepaliveEvent}
    (hlate : ∀ earlier ∈ past, earlier < e.time) : ClockAdvances start (pulse ++ [e]) :=
  clockAdvances_snoc.mpr ⟨h.clock, hlate _ h.start_past, fun e' he' => hlate _ (h.pulse_past e' he')⟩

theorem Beating.past_snoc (h : Beating C past start pulse tracker nextTick) (e : KeepaliveEvent) :
    ∀ e' ∈ pulse ++ [e], e'.time ∈ past ++ [e.time] := by
  intro e' he'
  rcases List.mem_append.mp he' with hold | hnew
  · exact List.mem_append_left _ (h.pulse_past e' hold)
  · rw [List.mem_singleton.mp hnew]
    exact List.mem_append_right _ (List.mem_singleton.mpr rfl)

theorem Beating.pong (h : Beating C past start pulse tracker nextTick) (hlate : ∀ earlier ∈ past, earlier < now) :
    Beating C (past ++ [now]) start (pulse ++ [.pong now]) (tracker.recordPong now) nextTick where
  start_past := List.mem_append_left _ h.start_past
  pulse_past := h.past_snoc (.pong now)
  clock := h.clock_snoc hlate
  tracked := by
    rw [runs_snoc, h.tracked]
    rfl
  spaced := ⟨by simpa using h.spaced.first, by simpa using h.spaced.apart⟩
  first := h.first
  next := by simpa using h.next

theorem Beating.spaced_tick (h : Beating C past start pulse tracker nextTick) (htime : nextTick ≤ now) :
    Spaced C start (pulse ++ [.tick now]) := by
  constructor
  · intro tick htick
    rw [tickTimes_tick, List.mem_append, List.mem_singleton] at htick
    rcases htick with hold | rfl
    · exact h.spaced.first tick hold
    · exact Nat.le_trans h.first htime
  · rw [tickTimes_tick, List.pairwise_append]
    refine ⟨h.spaced.apart, List.pairwise_singleton _ _, fun tick htick later hlater => ?_⟩
    rw [List.mem_singleton.mp hlater]
    exact Nat.le_trans (h.next tick htick) (Nat.add_le_add_right htime 5)

theorem nextTimeout_le (C : ClientConfig) (timeout now : Instant) :
    timeout + C.keepaliveInterval ≤ Client.nextTimeout C timeout now ∧
      now + C.keepaliveInterval ≤ Client.nextTimeout C timeout now + 5 := by
  unfold Client.nextTimeout
  unfold Instant Duration at *
  split <;> omega

theorem Beating.ping (h : Beating C past start pulse tracker nextTick) (hlate : ∀ earlier ∈ past, earlier < now)
    (htime : nextTick ≤ now) (hcheck : tracker.checkMissed = (tracker', .ok ())) :
    Beating C (past ++ [now]) start (pulse ++ [.tick now]) (tracker'.recordPing now)
      (Client.nextTimeout C nextTick now) where
  start_past := List.mem_append_left _ h.start_past
  pulse_past := h.past_snoc (.tick now)
  clock := h.clock_snoc hlate
  tracked := by
    rw [runs_snoc, h.tracked, Option.bind_some]
    exact KeepaliveTracker.step_ping hcheck
  spaced := h.spaced_tick htime
  first := Nat.le_trans h.first (Nat.le_trans (Nat.le_add_right ..) (nextTimeout_le C nextTick now).1)
  next := by
    obtain ⟨hlater, hnow⟩ := nextTimeout_le C nextTick now
    intro tick htick
    rw [tickTimes_tick, List.mem_append, List.mem_singleton] at htick
    rcases htick with hold | rfl
    · have hnext : nextTick ≤ Client.nextTimeout C nextTick now := Nat.le_trans (Nat.le_add_right ..) hlater
      exact Nat.le_trans (h.next tick hold) (Nat.add_le_add_right hnext 5)
    · exact hnow

/-! ## Verdicts -/

/-- How a session ends, read off its pulse. -/
structure Verdict (C : ClientConfig) (start : Instant) (pulse : List KeepaliveEvent)
    (source : ConnectFailure) : Prop where
  clock : ClockAdvances start pulse
  spaced : Spaced C start pulse
  lost_iff : EndsSilent C.keepaliveMissedLimit.toNat pulse ↔ source = .keepalive (.keepaliveLost C.keepaliveMissedLimit)
  lost : ∀ e, source = .keepalive e → e = .keepaliveLost C.keepaliveMissedLimit
  /-- The client does not hesitate. -/
  atOnce : ∀ earlier, earlier <+: pulse → EndsSilent C.keepaliveMissedLimit.toNat earlier → earlier = pulse

theorem Beating.tracks (h : Beating C past start pulse tracker nextTick) (hlimit : 1 ≤ C.keepaliveMissedLimit) :
    Tracks start C.keepaliveMissedLimit pulse tracker ∧
      ∀ earlier, earlier <+: pulse → ¬ EndsSilent C.keepaliveMissedLimit.toNat earlier := by
  rcases runs_tracks hlimit h.clock with ⟨t, hrun, htracks, halive⟩ | ⟨hrun, -⟩
  · rw [h.tracked] at hrun
    cases hrun
    exact ⟨htracks, halive⟩
  · rw [h.tracked] at hrun
    cases hrun

theorem Beating.verdict (h : Beating C past start pulse tracker nextTick) (hlimit : 1 ≤ C.keepaliveMissedLimit)
    {source : ConnectFailure} (hsource : ∀ e, source ≠ .keepalive e) : Verdict C start pulse source where
  clock := h.clock
  spaced := h.spaced
  lost_iff := ⟨fun hsilent => absurd hsilent ((h.tracks hlimit).2 pulse List.prefix_rfl),
    fun hs => absurd hs (hsource _)⟩
  lost := fun e hs => absurd hs (hsource e)
  atOnce := fun earlier hearlier hsilent => absurd hsilent ((h.tracks hlimit).2 earlier hearlier)

theorem Beating.lost (h : Beating C past start pulse tracker nextTick) (hlimit : 1 ≤ C.keepaliveMissedLimit)
    (hlate : ∀ earlier ∈ past, earlier < now) (htime : nextTick ≤ now) {e : NetworkError}
    (hcheck : tracker.checkMissed = (tracker', .error e)) : Verdict C start (pulse ++ [.tick now]) (.keepalive e) := by
  obtain ⟨htracks, halive⟩ := h.tracks hlimit
  rcases checkMissed_cases hlimit htracks now with ⟨hsilent, hlost⟩ | ⟨-, ⟨-, -, hok⟩ | ⟨-, hok⟩⟩
  · rw [hcheck] at hlost
    cases hlost
    refine ⟨h.clock_snoc hlate, h.spaced_tick htime, ⟨fun _ => rfl, fun _ => hsilent⟩, ?_, ?_⟩
    · intro e he
      cases he
      rfl
    · intro earlier hearlier hend
      rcases List.prefix_concat_iff.mp hearlier with heq | hshort
      · exact heq
      · exact absurd hend (halive earlier hshort)
  · rw [hcheck] at hok
    cases hok
  · rw [hcheck] at hok
    cases hok
end

def ClientPhase.loop : ClientPhase → Option (KeepaliveTracker × Instant)
  | .session tracker nextTick | .forwarding tracker nextTick _ => some (tracker, nextTick)
  | _ => none

namespace Client

variable {C : ClientConfig} {past : List Instant} {c t u : Client} {os : Os}
  {a : ClientAction}

structure Pulsed (C : ClientConfig) (past : List Instant) (c : Client) : Prop where
  history : ∀ a ∈ c.history, ∀ start, a.opened = some start → Verdict C start a.pulse a.source
  session : ∀ tracker nextTick, c.phase.loop = some (tracker, nextTick) →
    ∃ start, c.opened = some start ∧ Beating C past start c.pulse tracker nextTick
  idle : c.phase.loop = none → c.phase ≠ .returned → c.opened = none ∧ c.pulse = []

theorem Pulsed.beating (h : Pulsed C past c) {tracker : KeepaliveTracker} {nextTick : Instant}
    (hphase : c.phase = .session tracker nextTick) :
    ∃ start, c.opened = some start ∧ Beating C past start c.pulse tracker nextTick := by
  apply h.session
  rw [hphase]
  rfl

theorem pulsed_failed {authed : Bool} {source : ConnectFailure}
    (h : ∀ a ∈ c.history, ∀ start, a.opened = some start → Verdict C start a.pulse a.source)
    (hverdict : ∀ start, c.opened = some start → Verdict C start c.pulse source) :
    Pulsed C past (c.failed os authed source) := by
  rcases failed_cases c os authed source with heq | ⟨backoff, -, heq⟩
  · rw [heq]
    exact ⟨h, by simp [ClientPhase.loop], by simp⟩
  · rw [heq]
    refine ⟨fun a ha => ?_, by simp [ClientPhase.loop], by simp⟩
    rcases List.mem_append.mp ha with hold | hnew
    · exact h a hold
    · rw [List.mem_singleton.mp hnew]
      exact hverdict

theorem pulsed_leave {source : ConnectFailure} {start : Instant}
    (h : ∀ a ∈ c.history, ∀ start, a.opened = some start → Verdict C start a.pulse a.source)
    (hopened : c.opened = some start) (hverdict : Verdict C start c.pulse source) :
    Pulsed C past (c.leave os (.error source)) := by
  apply pulsed_failed (c := c.log _) h
  intro start' hstart
  obtain rfl : start = start' := Option.some.inj (hopened.symm.trans hstart)
  exact hverdict

/-- Before and after a session there is no pulse. -/
theorem Pulsed.calm (h : Pulsed C past c) (hloop : c.phase.loop = none) (hlive : c.phase ≠ .returned)
    (past' : List Instant) (hhistory : t.history = c.history) (hopened : t.opened = c.opened)
    (hpulse : t.pulse = c.pulse) (hnext : t.phase.loop = none) : Pulsed C past' t := by
  refine ⟨by rw [hhistory]; exact h.history, by simp [hnext], fun _ _ => ?_⟩
  rw [hopened, hpulse]
  exact h.idle hloop hlive

theorem loop_of_handshaking {phase : ClientPhase} (h : phase.handshaking = true) :
    phase.loop = none ∧ phase ≠ .returned := by
  cases phase <;> simp_all [ClientPhase.handshaking, ClientPhase.loop]

/-- A step that the tracker does not hear of. -/
theorem Pulsed.quiet (h : Pulsed C past c) (more : List Instant) (hhistory : t.history = c.history)
    (hopened : t.opened = c.opened) (hpulse : t.pulse = c.pulse) (hloop : t.phase.loop = c.phase.loop)
    (hphase : t.phase = .returned ↔ c.phase = .returned) : Pulsed C (past ++ more) t := by
  refine ⟨by rw [hhistory]; exact h.history, fun tracker nextTick htick => ?_, fun hnone hlive => ?_⟩
  · rw [hloop] at htick
    obtain ⟨start, hstart, hbeat⟩ := h.session tracker nextTick htick
    rw [hopened, hpulse]
    exact ⟨start, hstart, hbeat.later more⟩
  · rw [hloop] at hnone
    rw [hopened, hpulse]
    exact h.idle hnone fun hp => hlive (hphase.mpr hp)

/-- A step that the tracker hears of. -/
theorem pulsed_beat {start nextTick : Instant} {tracker : KeepaliveTracker}
    (h : ∀ a ∈ c.history, ∀ start, a.opened = some start → Verdict C start a.pulse a.source)
    (hopened : c.opened = some start) (hphase : c.phase = .session tracker nextTick)
    (hbeat : Beating C past start c.pulse tracker nextTick) : Pulsed C past c := by
  refine ⟨h, fun tracker' nextTick' htick => ?_, by simp [hphase, ClientPhase.loop]⟩
  rw [hphase] at htick
  cases htick
  exact ⟨start, hopened, hbeat⟩

/-- The readings of the clock that a step shows to a tracker. -/
def readings (a : Os × ClientAction) : List Instant := if a.2.beats then [a.1.now] else []

theorem readings_of_beats (h : a.beats = true) : readings (os, a) = [os.now] := if_pos h

theorem pulsed_step (hlimit : 1 ≤ C.keepaliveMissedLimit) (h : Pulsed C past c)
    (hlate : ∀ now ∈ readings (os, a), ∀ earlier ∈ past, earlier < now) (hturn : Turn C c os a t) :
    Pulsed C (past ++ readings (os, a)) t := by
  have hnow (hbeats : a.beats = true) : ∀ earlier ∈ past, earlier < os.now := by
    rw [readings_of_beats hbeats, List.forall_mem_singleton] at hlate
    exact hlate
  cases hturn with
  | greet hphase | prove hphase | configure hphase | ready hphase | drained hphase | wake hphase =>
    exact h.calm (by rw [hphase]; rfl) (by simp [hphase]) _ rfl rfl rfl rfl
  | ignore hphase | noise hphase | send _ hphase => exact h.quiet _ rfl rfl rfl rfl Iff.rfl
  | refused last source hphase =>
    obtain ⟨hloop, hlive⟩ := loop_of_handshaking hphase
    apply pulsed_failed (c := { c with events := c.events ++ last }) h.history
    intro start hstart
    cases (h.idle hloop hlive).1.symm.trans hstart
  | ping hphase htime hcheck hbeats =>
    obtain ⟨start, hopened, hbeat⟩ := h.beating hphase
    rw [readings_of_beats hbeats]
    exact pulsed_beat h.history hopened rfl (hbeat.ping (hnow hbeats) htime hcheck)
  | unsentPing hphase htime hcheck hbeats =>
    obtain ⟨start, hopened, hbeat⟩ := h.beating hphase
    exact pulsed_leave h.history hopened ((hbeat.ping (hnow hbeats) htime hcheck).verdict hlimit (by simp))
  | lost hphase htime hcheck hbeats =>
    obtain ⟨start, hopened, hbeat⟩ := h.beating hphase
    exact pulsed_leave h.history hopened (hbeat.lost hlimit (hnow hbeats) htime hcheck)
  | pong hphase hdata hbeats =>
    obtain ⟨start, hopened, hbeat⟩ := h.beating hphase
    rw [readings_of_beats hbeats]
    exact pulsed_beat h.history hopened rfl (hbeat.pong (hnow hbeats))
  | dismissed hphase hdata hsource =>
    obtain ⟨start, hopened, hbeat⟩ := h.beating hphase
    exact pulsed_leave h.history hopened (hbeat.verdict hlimit hsource)
  | broken hphase =>
    obtain ⟨start, hopened, hbeat⟩ := h.beating hphase
    exact pulsed_leave h.history hopened (hbeat.verdict hlimit (by simp))
  | inbound hphase | deliver hphase => exact h.quiet _ rfl rfl rfl (by rw [hphase]; rfl) (by simp [hphase])
  | closed hphase => exact ⟨h.history, by simp [leave, ClientPhase.loop], by simp [leave]⟩
  | quit hphase => exact ⟨h.history, by simp [ClientPhase.loop], by simp⟩
  | opened hact hphase =>
    have hpulse := (h.idle (by rw [hphase]; rfl) (by simp [hphase])).2
    have hbeat := beating_new C past os.now
    rw [← hpulse] at hbeat
    rw [readings_of_beats (by rw [hact]; rfl)]
    exact pulsed_beat (c := c.openSession C os) h.history rfl rfl hbeat
  | other => exact h.quiet _ rfl rfl rfl rfl Iff.rfl

theorem pulsed_run (hlimit : 1 ≤ C.keepaliveMissedLimit) {as : List (Os × ClientAction)}
    (hclock : (as.flatMap readings).Pairwise (· < ·)) (hrun : runs (step C) start as = some t) :
    Pulsed C (as.flatMap readings) t := by
  induction as using List.reverseRecOn generalizing t with
  | nil =>
    cases hrun
    exact ⟨List.forall_mem_nil _, by simp [start, ClientPhase.loop], fun _ _ => ⟨rfl, rfl⟩⟩
  | append_singleton as a ih =>
    rw [runs_snoc] at hrun
    obtain ⟨u, hu, hstep⟩ := Option.bind_eq_some_iff.mp hrun
    rw [List.flatMap_append, List.flatMap_singleton] at hclock ⊢
    obtain ⟨hpast, -, hlate⟩ := List.pairwise_append.mp hclock
    exact pulsed_step hlimit (ih hpast hu) (fun now hnow earlier hearlier => hlate earlier hearlier now hnow)
      (step_turn hstep)

/-- In each session the pings keep their interval, and the master is given up at the first ping that ends
`missed_limit` silent intervals in a row and for no other silence. -/
theorem session_verdict (C : ClientConfig) (as : List (Os × ClientAction)) (t : Client)
    (hlimit : 1 ≤ C.keepaliveMissedLimit) (hclock : (as.flatMap readings).Pairwise (· < ·))
    (hrun : runs (step C) start as = some t) :
    (∀ a ∈ t.history, ∀ start, a.opened = some start → Verdict C start a.pulse a.source) ∧
      ∀ tracker nextTick, t.phase.loop = some (tracker, nextTick) →
        ∃ start, t.opened = some start ∧ Spaced C start t.pulse ∧
          ∀ earlier, earlier <+: t.pulse → ¬ EndsSilent C.keepaliveMissedLimit.toNat earlier := by
  have hpulsed := pulsed_run hlimit hclock hrun
  refine ⟨hpulsed.history, fun tracker nextTick hloop => ?_⟩
  obtain ⟨start, hopened, hbeat⟩ := hpulsed.session tracker nextTick hloop
  exact ⟨start, hopened, hbeat.spaced, (hbeat.tracks hlimit).2⟩

theorem session_verdict_sample :
    ∃ t, runs (step sampleConfig) start (login ++ unanswered) = some t ∧ t.history ≠ [] ∧
      (∀ a ∈ t.history, ∀ start, a.opened = some start → Verdict sampleConfig start a.pulse a.source) := by
  have hrun : (runs (step sampleConfig) start (login ++ unanswered)).any (fun t => decide (t.history ≠ [])) = true := by
    decide +kernel
  obtain ⟨t, ht, hhistory⟩ := (Option.any_eq_true ..).mp hrun
  exact ⟨t, ht, of_decide_eq_true hhistory, (session_verdict sampleConfig _ t (by decide) (by decide) ht).1⟩

end Client

end DmrBridge
