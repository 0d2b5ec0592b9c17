import DmrBridge.Types
import DmrBridge.Lib.Run

/-!
# Keepalive

`KeepaliveTracker` and the two arms of `keepalive_loop` that drive it. The tracker compares the last
pong with the last ping; the counter then says how many intervals in a row went unanswered.
-/

open Run

namespace DmrBridge

inductive NetworkError where
  | keepaliveLost (missed : UInt32)
  deriving DecidableEq, Repr

structure KeepaliveTracker where
  lastPing : Option Instant
  lastPong : Instant
  missed : UInt32
  missedLimit : UInt32
  deriving DecidableEq, Repr

inductive KeepaliveEvent where
  /-- The ticker fires; the ping is recorded at `now`. -/
  | tick (now : Instant)
  | pong (now : Instant)
  deriving DecidableEq, Repr

def KeepaliveEvent.isTick : KeepaliveEvent → Bool
  | .tick _ => true
  | .pong _ => false

def KeepaliveEvent.time : KeepaliveEvent → Instant
  | .tick now | .pong now => now

namespace KeepaliveTracker

def new (missedLimit : UInt32) (now : Instant) : KeepaliveTracker :=
  { lastPing := none, lastPong := now, missed := 0, missedLimit }

def checkMissed (t : KeepaliveTracker) : KeepaliveTracker × Except NetworkError Unit :=
  match t.lastPing with
  | some prev =>
    if t.lastPong < prev then
      let t := { t with missed := t.missed + 1 }
      if t.missed ≥ t.missedLimit then (t, .error (.keepaliveLost t.missed)) else (t, .ok ())
    else (t, .ok ())
  | none => (t, .ok ())

def recordPing (t : KeepaliveTracker) (now : Instant) : KeepaliveTracker := { t with lastPing := some now }

def recordPong (t : KeepaliveTracker) (now : Instant) : KeepaliveTracker :=
  { t with lastPong := now, missed := 0 }

/-- One turn of `keepalive_loop`. An error leaves the loop before the ping goes out. -/
def step (t : KeepaliveTracker) : KeepaliveEvent → Option KeepaliveTracker
  | .tick now =>
    match t.checkMissed with
    | (t, .ok ()) => some (t.recordPing now)
    | (_, .error _) => none
  | .pong now => some (t.recordPong now)

/-! ## One check -/

/-- The last ping is out and no pong has come since. -/
def Unanswered (t : KeepaliveTracker) : Prop := ∃ prev, t.lastPing = some prev ∧ t.lastPong < prev

theorem checkMissed_answered {t : KeepaliveTracker} (h : ¬ t.Unanswered) : t.checkMissed = (t, .ok ()) := by
  unfold checkMissed
  split
  · rename_i prev hping
    rw [if_neg fun hlt => h ⟨prev, hping, hlt⟩]
  · rfl

theorem checkMissed_unanswered {t : KeepaliveTracker} (h : t.Unanswered) :
    t.checkMissed = ({ t with missed := t.missed + 1 },
      if t.missed + 1 ≥ t.missedLimit then .error (.keepaliveLost (t.missed + 1)) else .ok ()) := by
  obtain ⟨prev, hping, hlt⟩ := h
  unfold checkMissed
  simp only [hping, if_pos hlt]
  split <;> rfl

theorem step_lost {t t' : KeepaliveTracker} {e : NetworkError} {now : Instant} (h : t.checkMissed = (t', .error e)) :
    t.step (.tick now) = none := by
  simp only [step, h]

theorem step_ping {t t' : KeepaliveTracker} {now : Instant} (h : t.checkMissed = (t', .ok ())) :
    t.step (.tick now) = some (t'.recordPing now) := by
  simp only [step, h]

theorem unanswered_recordPing {t : KeepaliveTracker} {now : Instant} (h : t.lastPong < now) :
    (t.recordPing now).Unanswered := ⟨now, rfl, h⟩

theorem not_unanswered_recordPong {t : KeepaliveTracker} {now : Instant} (h : ∀ prev ∈ t.lastPing, prev ≤ now) :
    ¬ (t.recordPong now).Unanswered := by
  rintro ⟨prev, hping, hlt⟩
  exact absurd (h prev hping) (Nat.not_le.mpr hlt)

end KeepaliveTracker

/-! ## Silent intervals -/

/-- The last events are `n` intervals from ping to tick in a row, with no pong in any. -/
def EndsSilent (n : Nat) (events : List KeepaliveEvent) : Prop :=
  ∃ ticks, ticks <:+ events ∧ ticks.length = n + 1 ∧ ∀ e ∈ ticks, e.isTick

/-- The clock's readings, the one in `KeepaliveTracker::new` first. -/
def ClockAdvances (start : Instant) (events : List KeepaliveEvent) : Prop :=
  (start :: events.map (·.time)).Pairwise (· < ·)

theorem not_endsSilent_nil (n : Nat) : ¬ EndsSilent n [] := by
  rintro ⟨ticks, hsuffix, hlength, -⟩
  rw [List.suffix_nil.mp hsuffix] at hlength
  simp at hlength

theorem not_endsSilent_pong (n : Nat) (events : List KeepaliveEvent) (now : Instant) :
    ¬ EndsSilent n (events ++ [.pong now]) := by
  rintro ⟨ticks, hsuffix, hlength, hticks⟩
  obtain rfl | ⟨earlier, rfl, -⟩ := List.suffix_concat_iff.mp hsuffix
  · simp at hlength
  · have hpong := hticks (.pong now) (by simp)
    simp [KeepaliveEvent.isTick] at hpong

theorem endsSilent_zero_tick (events : List KeepaliveEvent) (now : Instant) :
    EndsSilent 0 (events ++ [.tick now]) :=
  ⟨[.tick now], List.suffix_append .., rfl, by simp [KeepaliveEvent.isTick]⟩

theorem endsSilent_succ_tick (n : Nat) (events : List KeepaliveEvent) (now : Instant) :
    EndsSilent (n + 1) (events ++ [.tick now]) ↔ EndsSilent n events := by
  constructor
  · rintro ⟨ticks, hsuffix, hlength, hticks⟩
    obtain rfl | ⟨earlier, rfl, hearlier⟩ := List.suffix_concat_iff.mp hsuffix
    · simp at hlength
    · refine ⟨earlier, hearlier, by simpa using hlength, fun e he => hticks e ?_⟩
      exact List.mem_append_left _ he
  · rintro ⟨ticks, hsuffix, hlength, hticks⟩
    refine ⟨ticks ++ [.tick now], List.suffix_concat_iff.mpr (.inr ⟨ticks, rfl, hsuffix⟩), by simp [hlength], ?_⟩
    intro e he
    obtain he | he := List.mem_append.mp he
    · exact hticks e he
    · rw [List.mem_singleton.mp he]
      rfl

theorem endsSilent_after_pong (prior : List KeepaliveEvent) (now : Instant) {ticks : List KeepaliveEvent}
    (h : ∀ e ∈ ticks, e.isTick) (n : Nat) : EndsSilent n (prior ++ .pong now :: ticks) ↔ n + 1 ≤ ticks.length := by
  induction ticks using List.reverseRecOn generalizing n with
  | nil => simp [not_endsSilent_pong]
  | append_singleton ticks e ih =>
    have hticks : ∀ e ∈ ticks, e.isTick := fun e he => h e (List.mem_append_left _ he)
    have hsplit : prior ++ .pong now :: (ticks ++ [e]) = (prior ++ .pong now :: ticks) ++ [e] := by simp
    rw [hsplit, List.length_append, List.length_singleton]
    cases e with
    | pong late =>
      have hpong := h (.pong late) (by simp)
      cases hpong
    | tick now =>
      cases n with
      | zero => exact ⟨fun _ => by omega, fun _ => endsSilent_zero_tick _ _⟩
      | succ n => rw [endsSilent_succ_tick, ih hticks, Nat.add_le_add_iff_right]

theorem not_endsSilent_of_no_tick {events : List KeepaliveEvent} (h : ∀ e ∈ events, ¬ e.isTick) (n : Nat) :
    ¬ EndsSilent n events := by
  rintro ⟨ticks, hsuffix, hlength, hticks⟩
  obtain ⟨e, he⟩ := List.exists_mem_of_length_pos (l := ticks) (by omega)
  exact h e (hsuffix.mem he) (hticks e he)

theorem clockAdvances_snoc {start : Instant} {events : List KeepaliveEvent} {e : KeepaliveEvent} :
    ClockAdvances start (events ++ [e]) ↔
      ClockAdvances start events ∧ start < e.time ∧ ∀ e' ∈ events, e'.time < e.time := by
  unfold ClockAdvances
  rw [List.map_append, ← List.cons_append, List.pairwise_append]
  simp

/-! ## What the tracker knows -/

/-- The tracker of a loop that has taken `events` and is still running. -/
structure Tracks (start : Instant) (limit : UInt32) (events : List KeepaliveEvent) (t : KeepaliveTracker) : Prop where
  limit_eq : t.missedLimit = limit
  below : t.missed < limit
  silent_iff : ∀ n, EndsSilent n events ↔ t.Unanswered ∧ n ≤ t.missed.toNat
  answered : ¬ t.Unanswered → t.missed = 0
  /-- A reading later than the others is later than both that the tracker holds. -/
  clock : ∀ now, start < now → (∀ e ∈ events, e.time < now) → t.lastPong < now ∧ ∀ prev ∈ t.lastPing, prev < now

section
variable {start : Instant} {limit : UInt32} {events : List KeepaliveEvent} {t : KeepaliveTracker} {now : Instant}

theorem tracks_new (hlimit : 1 ≤ limit) : Tracks start limit [] (.new limit start) := by
  have hquiet : ¬ (KeepaliveTracker.new limit start).Unanswered := by
    rintro ⟨prev, hping, -⟩
    cases hping
  constructor
  · rfl
  · exact UInt32.lt_of_lt_of_le (by decide : (0 : UInt32) < 1) hlimit
  · intro n
    simp [not_endsSilent_nil, hquiet]
  · intro _
    rfl
  · intro now hstart _
    exact ⟨hstart, by rintro prev ⟨⟩⟩

/-- Below the limit the counter does not wrap. -/
theorem toNat_missed_succ (h : t.missed < limit) : (t.missed + 1).toNat = t.missed.toNat + 1 := by
  have hlt := UInt32.lt_iff_toNat_lt.mp h
  have hsize := limit.toNat_lt
  rw [UInt32.toNat_add]
  exact Nat.mod_eq_of_lt (by simp; omega)

/-- The tick that ends the last allowed interval. -/
theorem endsSilent_limit_iff (hlimit : 1 ≤ limit) (h : Tracks start limit events t) :
    EndsSilent limit.toNat (events ++ [.tick now]) ↔ t.Unanswered ∧ t.missed + 1 = limit := by
  have hpos : 1 ≤ limit.toNat := UInt32.le_iff_toNat_le.mp hlimit
  have hlt := UInt32.lt_iff_toNat_lt.mp h.below
  obtain ⟨k, hk⟩ : ∃ k, limit.toNat = k + 1 := ⟨limit.toNat - 1, by omega⟩
  rw [hk, endsSilent_succ_tick, h.silent_iff, ← UInt32.toNat_inj, toNat_missed_succ h.below]
  constructor
  · rintro ⟨hopen, hcount⟩
    exact ⟨hopen, by omega⟩
  · rintro ⟨hopen, hcount⟩
    exact ⟨hopen, by omega⟩

/-- `check_missed`, by the interval that the tick ends. -/
theorem checkMissed_cases (hlimit : 1 ≤ limit) (h : Tracks start limit events t) (now : Instant) :
    EndsSilent limit.toNat (events ++ [.tick now]) ∧
        t.checkMissed = ({ t with missed := limit }, .error (.keepaliveLost limit)) ∨
      ¬ EndsSilent limit.toNat (events ++ [.tick now]) ∧
        (t.Unanswered ∧ t.missed + 1 < limit ∧ t.checkMissed = ({ t with missed := t.missed + 1 }, .ok ()) ∨
          ¬ t.Unanswered ∧ t.checkMissed = (t, .ok ())) := by
  rw [endsSilent_limit_iff hlimit h]
  by_cases hopen : t.Unanswered
  · rw [KeepaliveTracker.checkMissed_unanswered hopen, h.limit_eq]
    by_cases hlast : t.missed + 1 = limit
    · left
      rw [hlast, if_pos (UInt32.le_refl limit)]
      exact ⟨⟨hopen, rfl⟩, rfl⟩
    · right
      have hlt : t.missed + 1 < limit := by
        have hbelow := UInt32.lt_iff_toNat_lt.mp h.below
        rw [← UInt32.toNat_inj, toNat_missed_succ h.below] at hlast
        rw [UInt32.lt_iff_toNat_lt, toNat_missed_succ h.below]
        omega
      refine ⟨fun hlost => hlast hlost.2, .inl ⟨hopen, hlt, ?_⟩⟩
      rw [if_neg (UInt32.not_le.mpr hlt)]
  · right
    exact ⟨fun hlost => hopen hlost.1, .inr ⟨hopen, KeepaliveTracker.checkMissed_answered hopen⟩⟩

theorem checkMissed_lost (hlimit : 1 ≤ limit) (h : Tracks start limit events t)
    (hsilent : EndsSilent limit.toNat (events ++ [.tick now])) : t.checkMissed.2 = .error (.keepaliveLost limit) := by
  obtain ⟨-, hcheck⟩ | ⟨hnot, -⟩ := checkMissed_cases hlimit h now
  · rw [hcheck]
  · exact absurd hsilent hnot

theorem checkMissed_ok (hlimit : 1 ≤ limit) (h : Tracks start limit events t)
    (hsilent : ¬ EndsSilent limit.toNat (events ++ [.tick now])) : t.checkMissed.2 = .ok () := by
  obtain ⟨hlost, -⟩ | ⟨-, ⟨-, -, hcheck⟩ | ⟨-, hcheck⟩⟩ := checkMissed_cases hlimit h now
  · exact absurd hlost hsilent
  · rw [hcheck]
  · rw [hcheck]

theorem checkMissed_missed_le (hlimit : 1 ≤ limit) (h : Tracks start limit events t) :
    t.checkMissed.1.missed ≤ limit := by
  obtain ⟨-, hcheck⟩ | ⟨-, ⟨-, hlt, hcheck⟩ | ⟨-, hcheck⟩⟩ := checkMissed_cases hlimit h start
  · rw [hcheck]
    exact UInt32.le_refl limit
  · rw [hcheck]
    exact UInt32.le_of_lt hlt
  · rw [hcheck]
    exact UInt32.le_of_lt h.below

/-! ## One event -/

theorem tracks_pong (h : Tracks start limit events t) (hstart : start < now) (hlate : ∀ e ∈ events, e.time < now) :
    Tracks start limit (events ++ [.pong now]) (t.recordPong now) := by
  have hping : ∀ prev ∈ t.lastPing, prev < now := (h.clock now hstart hlate).2
  have hquiet : ¬ (t.recordPong now).Unanswered :=
    KeepaliveTracker.not_unanswered_recordPong fun prev hprev => Nat.le_of_lt (hping prev hprev)
  constructor
  · exact h.limit_eq
  · exact UInt32.lt_of_le_of_lt (UInt32.zero_le) h.below
  · intro n
    simp [not_endsSilent_pong, hquiet]
  · intro _
    rfl
  · intro later hstart' hlater
    have hnow : now < later := hlater (.pong now) (by simp)
    exact ⟨hnow, fun prev hprev => Nat.lt_trans (hping prev hprev) hnow⟩

/-- The ping that follows a check, whose counter is the number of whole intervals. -/
theorem tracks_ping {missed : UInt32} (h : Tracks start limit events t) (hstart : start < now)
    (hlate : ∀ e ∈ events, e.time < now) (hbelow : missed < limit)
    (hcount : ∀ n, EndsSilent n events ↔ n + 1 ≤ missed.toNat) :
    Tracks start limit (events ++ [.tick now]) ({ t with missed := missed }.recordPing now) := by
  have hopen : ({ t with missed := missed }.recordPing now).Unanswered :=
    KeepaliveTracker.unanswered_recordPing (h.clock now hstart hlate).1
  constructor
  · exact h.limit_eq
  · exact hbelow
  · intro n
    cases n with
    | zero => exact ⟨fun _ => ⟨hopen, Nat.zero_le _⟩, fun _ => endsSilent_zero_tick events now⟩
    | succ n =>
      rw [endsSilent_succ_tick, hcount]
      exact ⟨fun hle => ⟨hopen, hle⟩, fun hle => hle.2⟩
  · intro hquiet
    exact absurd hopen hquiet
  · intro later hstart' hlater
    have hnow : now < later := hlater (.tick now) (by simp)
    refine ⟨Nat.lt_trans (h.clock now hstart hlate).1 hnow, ?_⟩
    rintro prev ⟨⟩
    exact hnow

/-- A tick ends the loop exactly at the limit. -/
theorem tracks_tick (hlimit : 1 ≤ limit) (h : Tracks start limit events t) (hstart : start < now)
    (hlate : ∀ e ∈ events, e.time < now) :
    EndsSilent limit.toNat (events ++ [.tick now]) ∧ t.step (.tick now) = none ∨
      ¬ EndsSilent limit.toNat (events ++ [.tick now]) ∧
        ∃ t', t.step (.tick now) = some t' ∧ Tracks start limit (events ++ [.tick now]) t' := by
  obtain ⟨hsilent, hcheck⟩ | ⟨hsilent, ⟨hopen, hlt, hcheck⟩ | ⟨hquiet, hcheck⟩⟩ := checkMissed_cases hlimit h now
  · exact .inl ⟨hsilent, KeepaliveTracker.step_lost hcheck⟩
  · refine .inr ⟨hsilent, _, KeepaliveTracker.step_ping hcheck, ?_⟩
    apply tracks_ping h hstart hlate hlt
    intro n
    rw [h.silent_iff, toNat_missed_succ h.below, Nat.add_le_add_iff_right]
    exact and_iff_right hopen
  · refine .inr ⟨hsilent, _, KeepaliveTracker.step_ping hcheck, ?_⟩
    apply tracks_ping h hstart hlate h.below
    intro n
    rw [h.silent_iff, h.answered hquiet]
    simp [hquiet]

/-! ## Any run -/

theorem runs_tracks (hlimit : 1 ≤ limit) (hclock : ClockAdvances start events) :
    (∃ t, runs KeepaliveTracker.step (.new limit start) events = some t ∧ Tracks start limit events t ∧
        ∀ earlier, earlier <+: events → ¬ EndsSilent limit.toNat earlier) ∨
      runs KeepaliveTracker.step (.new limit start) events = none ∧
        ∃ earlier, earlier <+: events ∧ EndsSilent limit.toNat earlier := by
  induction events using List.reverseRecOn with
  | nil =>
    refine .inl ⟨_, rfl, tracks_new hlimit, ?_⟩
    intro earlier hearlier
    rw [List.prefix_nil.mp hearlier]
    exact not_endsSilent_nil _
  | append_singleton events e ih =>
    obtain ⟨hprior, hstart, hlate⟩ := clockAdvances_snoc.mp hclock
    rw [runs_snoc]
    obtain ⟨t, hrun, htracks, halive⟩ | ⟨hrun, earlier, hearlier, hsilent⟩ := ih hprior
    · have hlonger (hnow : ¬ EndsSilent limit.toNat (events ++ [e])) (earlier : List KeepaliveEvent)
          (hearlier : earlier <+: events ++ [e]) : ¬ EndsSilent limit.toNat earlier := by
        obtain rfl | hearlier := List.prefix_concat_iff.mp hearlier
        · exact hnow
        · exact halive earlier hearlier
      rw [hrun, Option.bind_some]
      cases e with
      | pong now =>
        exact .inl ⟨_, rfl, tracks_pong htracks hstart hlate, hlonger (not_endsSilent_pong _ _ _)⟩
      | tick now =>
        obtain ⟨hsilent, hlost⟩ | ⟨hsilent, t', hstep, htracks'⟩ := tracks_tick hlimit htracks hstart hlate
        · exact .inr ⟨hlost, _, List.prefix_rfl, hsilent⟩
        · exact .inl ⟨t', hstep, htracks', hlonger hsilent⟩
    · rw [hrun]
      exact .inr ⟨rfl, earlier, hearlier.trans (List.prefix_append ..), hsilent⟩

theorem tracks_unpinged (h : Tracks start limit events t) (hticks : ∀ e ∈ events, ¬ e.isTick) : ¬ t.Unanswered := by
  intro hopen
  exact not_endsSilent_of_no_tick hticks 0 ((h.silent_iff 0).mpr ⟨hopen, Nat.zero_le _⟩)

/-- A pong restarts the count. -/
theorem tracks_since_pong {prior ticks : List KeepaliveEvent} (h : Tracks start limit (prior ++ .pong now :: ticks) t)
    (hticks : ∀ e ∈ ticks, e.isTick) : t.missed.toNat = ticks.length - 1 := by
  have hcount (n : Nat) : n + 1 ≤ ticks.length ↔ t.Unanswered ∧ n ≤ t.missed.toNat := by
    rw [← endsSilent_after_pong prior now hticks, h.silent_iff]
  by_cases hopen : t.Unanswered
  · have hleast := (hcount (ticks.length - 1)).mp
    have hmost := (hcount t.missed.toNat).mpr ⟨hopen, Nat.le_refl _⟩
    have hle := (hleast (by omega)).2
    omega
  · have hnone : ¬ 0 + 1 ≤ ticks.length := fun hsome => hopen ((hcount 0).mp hsome).1
    rw [h.answered hopen]
    simp
    omega

/-! ## The verdict -/

/-- The loop is lost at the first tick that ends `limit` silent intervals in a row. -/
theorem keepalive_verdict (hlimit : 1 ≤ limit) (hclock : ClockAdvances start events) :
    (runs KeepaliveTracker.step (.new limit start) events = none ↔
        ∃ earlier, earlier <+: events ∧ EndsSilent limit.toNat earlier) ∧
      ∀ t, runs KeepaliveTracker.step (.new limit start) events = some t →
        t.missed ≤ limit ∧ t.checkMissed.1.missed ≤ limit ∧
          (∀ now, EndsSilent limit.toNat (events ++ [.tick now]) → t.checkMissed.2 = .error (.keepaliveLost limit)) ∧
          (∀ now, ¬ EndsSilent limit.toNat (events ++ [.tick now]) → t.checkMissed.2 = .ok ()) ∧
          ((∀ e ∈ events, ¬ e.isTick) → t.checkMissed = (t, .ok ())) ∧
          ∀ prior now ticks, events = prior ++ .pong now :: ticks → (∀ e ∈ ticks, e.isTick) →
            t.missed.toNat = ticks.length - 1 := by
  obtain ⟨t, hrun, htracks, halive⟩ | ⟨hrun, hsilent⟩ := runs_tracks hlimit hclock
  · rw [hrun]
    refine ⟨⟨fun hlost => absurd hlost (by simp), ?_⟩, ?_⟩
    · rintro ⟨earlier, hearlier, hsilent⟩
      exact absurd hsilent (halive earlier hearlier)
    · rintro _ ⟨⟩
      refine ⟨UInt32.le_of_lt htracks.below, checkMissed_missed_le hlimit htracks, ?_, ?_, ?_, ?_⟩
      · intro now hsilent
        exact checkMissed_lost hlimit htracks hsilent
      · intro now hsilent
        exact checkMissed_ok hlimit htracks hsilent
      · intro hticks
        exact KeepaliveTracker.checkMissed_answered (tracks_unpinged htracks hticks)
      · rintro prior now ticks rfl hticks
        exact tracks_since_pong htracks hticks
  · rw [hrun]
    exact ⟨⟨fun _ => hsilent, fun _ => rfl⟩, fun t ht => absurd ht (by simp)⟩

/-- The pong at 25 is late but saves the loop. The two intervals from 30 on lose it. -/
theorem keepalive_verdict_late_pong :
    ∃ t, runs KeepaliveTracker.step (.new 2 0) [.tick 10, .tick 20, .pong 25, .tick 30, .tick 40] = some t ∧
      t.missed.toNat = 1 ∧ t.checkMissed.2 = .error (.keepaliveLost 2) := by
  have hclock : ClockAdvances 0 [.tick 10, .tick 20, .pong 25, .tick 30, .tick 40] := by
    unfold ClockAdvances
    decide
  obtain ⟨-, hverdict⟩ := keepalive_verdict (by decide : (1 : UInt32) ≤ 2) hclock
  obtain ⟨-, -, hlost, -, -, hcount⟩ := hverdict _ rfl
  refine ⟨_, rfl, hcount [.tick 10, .tick 20] 25 [.tick 30, .tick 40] rfl (by decide), hlost 50 ?_⟩
  exact ⟨[.tick 30, .tick 40, .tick 50], ⟨[.tick 10, .tick 20, .pong 25], rfl⟩, rfl, by decide⟩

end

end DmrBridge
