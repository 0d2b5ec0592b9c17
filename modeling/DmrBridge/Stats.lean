import DmrBridge.Tx
import DmrBridge.Lib.Run

/-!
# Call statistics

`consume_events` and `fold_into_stats`. Starts and ends need not pair, because the producer drops
events on a full queue, and the two directions interleave.
-/

open Run

namespace DmrBridge

/-- A field for each direction, as `Stats` and the locals of `consume_events` have it. -/
structure PerDirection (α : Type) where
  fmToDmr : α
  dmrToFm : α
  deriving DecidableEq

namespace PerDirection

variable {α : Type}

def dir (p : PerDirection α) : CallDirection → α
  | .fmToDmr => p.fmToDmr
  | .dmrToFm => p.dmrToFm

def set (p : PerDirection α) (a : α) : CallDirection → PerDirection α
  | .fmToDmr => { p with fmToDmr := a }
  | .dmrToFm => { p with dmrToFm := a }

@[simp]
theorem dir_set (p : PerDirection α) (a : α) (d d' : CallDirection) :
    (p.set a d).dir d' = if d = d' then a else p.dir d' := by
  cases d <;> cases d' <;> rfl

end PerDirection

/-- The counters of the source are `AtomicU64`; `counts_fit` bounds the runs in which none of them wraps. -/
structure DirectionStats where
  callsCompleted : Nat
  voiceFrames : Nat
  drops : Nat
  deriving DecidableEq, Repr

abbrev Stats := PerDirection DirectionStats

def Stats.new : Stats := ⟨⟨0, 0, 0⟩, ⟨0, 0, 0⟩⟩

structure CallAccumulator where
  startedAt : Instant
  srcId : SubscriberId
  dstId : UInt32
  slot : Slot
  frames : Nat
  drops : Nat
  transcodeUs : List UInt32
  deriving DecidableEq

def CallAccumulator.new (srcId : SubscriberId) (dstId : UInt32) (slot : Slot) (now : Instant) : CallAccumulator :=
  { startedAt := now, srcId, dstId, slot, frames := 0, drops := 0, transcodeUs := [] }

/-! ## The log line -/

def CallDirection.asStr : CallDirection → String
  | .fmToDmr => "fm_to_dmr"
  | .dmrToFm => "dmr_to_fm"

def TerminationReason.asStr : TerminationReason → String
  | .normal => "normal"
  | .streamTimeout => "stream_timeout"
  | .txTimeout => "tx_timeout"
  | .shutdown => "shutdown"
  | .networkReset => "network_reset"

structure CallLog where
  dir : String
  src : UInt32
  dst : UInt32
  slot : Slot
  durMs : Nat
  frames : Nat
  drops : Nat
  transcodeP50Us : Option UInt32
  transcodeP99Us : Option UInt32
  reason : String
  deriving DecidableEq

/-- `((pct / 100.0) * len as f32).ceil() as usize` for the two percentiles that are logged. -/
structure NearestRank where
  p50 : Nat → Nat
  p99 : Nat → Nat

def percentileUs (samples : List UInt32) (rank : Nat → Nat) : Option UInt32 :=
  if samples.isEmpty then none
  else
    let sorted := samples.mergeSort
    sorted[min (rank samples.length - 1) (samples.length - 1)]?

/-- The clamped index is in range, so the lookup never panics. -/
theorem percentileUs_mem {samples : List UInt32} (h : samples ≠ []) (rank : Nat → Nat) :
    ∃ us ∈ samples, percentileUs samples rank = some us := by
  have hlength : samples.mergeSort.length = samples.length := List.length_mergeSort samples
  have hpos : 0 < samples.length := List.length_pos_iff.mpr h
  have hidx : min (rank samples.length - 1) (samples.length - 1) < samples.mergeSort.length := by omega
  refine ⟨_, List.mem_mergeSort.mp (List.getElem_mem hidx), ?_⟩
  rw [percentileUs, if_neg (by simpa using h)]
  exact List.getElem?_eq_getElem hidx

def logCall (ranks : NearestRank) (dir : CallDirection) (acc : CallAccumulator) (dur : Duration)
    (reason : TerminationReason) : CallLog :=
  { dir := dir.asStr
    src := acc.srcId.asU32
    dst := acc.dstId
    slot := acc.slot
    durMs := dur
    frames := acc.frames
    drops := acc.drops
    transcodeP50Us := percentileUs acc.transcodeUs ranks.p50
    transcodeP99Us := percentileUs acc.transcodeUs ranks.p99
    reason := reason.asStr }

/-! ## The consumer -/

def foldIntoStats (stats : Stats) (dir : CallDirection) (acc : CallAccumulator) : Stats :=
  let s := stats.dir dir
  stats.set ⟨s.callsCompleted + 1, s.voiceFrames + acc.frames, s.drops + acc.drops⟩ dir

/-- What `consume_events` keeps between two events. -/
structure Consumer where
  stats : Stats
  inFlight : PerDirection (Option CallAccumulator)

def Consumer.new : Consumer := ⟨.new, ⟨none, none⟩⟩

def asMicros (d : Duration) : Nat := 1000 * d

def CallAccumulator.voiceFrame (acc : CallAccumulator) (transcode : Duration) : CallAccumulator :=
  { acc with
    frames := acc.frames + 1
    transcodeUs := acc.transcodeUs ++ [.ofNat (min (asMicros transcode) (UInt32.size - 1))] }

/-- One turn of `consume_events`, with what it logs. -/
def consumeEvent (ranks : NearestRank) (minCallLogDuration : Duration) (consumer : Consumer) :
    Instant × StatsEvent → Consumer × List CallLog
  | (now, .callStart dir srcId dstId slot) =>
    let stats := match consumer.inFlight.dir dir with
      | some prev => foldIntoStats consumer.stats dir prev
      | none => consumer.stats
    (⟨stats, consumer.inFlight.set (some (.new srcId dstId slot now)) dir⟩, [])
  | (_, .voiceFrame dir transcode) =>
    match consumer.inFlight.dir dir with
    | some acc => ({ consumer with inFlight := consumer.inFlight.set (some (acc.voiceFrame transcode)) dir }, [])
    | none => (consumer, [])
  | (_, .drop dir) =>
    match consumer.inFlight.dir dir with
    | some acc =>
      ({ consumer with inFlight := consumer.inFlight.set (some { acc with drops := acc.drops + 1 }) dir }, [])
    | none => (consumer, [])
  | (now, .callEnd dir reason) =>
    match consumer.inFlight.dir dir with
    | some acc =>
      let dur := now - acc.startedAt
      (⟨foldIntoStats consumer.stats dir acc, consumer.inFlight.set none dir⟩,
        if dur ≥ minCallLogDuration then [logCall ranks dir acc dur reason] else [])
    | none => (consumer, [])

/-! ## One direction -/

/-- What the consumer keeps for one direction. -/
structure Lane where
  stats : DirectionStats
  inFlight : Option CallAccumulator

def Consumer.lane (consumer : Consumer) (dir : CallDirection) : Lane :=
  ⟨consumer.stats.dir dir, consumer.inFlight.dir dir⟩

namespace Lane

/-- The call in flight, if there is one, is over. -/
def close (lane : Lane) : Lane :=
  match lane.inFlight with
  | some acc =>
    { stats := ⟨lane.stats.callsCompleted + 1, lane.stats.voiceFrames + acc.frames, lane.stats.drops + acc.drops⟩
      inFlight := none }
  | none => lane

def take (lane : Lane) : Instant × StatsEvent → Lane
  | (now, .callStart _ srcId dstId slot) => { lane.close with inFlight := some (.new srcId dstId slot now) }
  | (_, .voiceFrame _ transcode) => { lane with inFlight := lane.inFlight.map (·.voiceFrame transcode) }
  | (_, .drop _) => { lane with inFlight := lane.inFlight.map fun acc => { acc with drops := acc.drops + 1 } }
  | (_, .callEnd ..) => lane.close

end Lane

theorem consumeEvent_own (ranks : NearestRank) (minCallLogDuration : Duration) (consumer : Consumer) (now : Instant)
    (e : StatsEvent) :
    (consumeEvent ranks minCallLogDuration consumer (now, e)).1.lane e.dir = (consumer.lane e.dir).take (now, e) := by
  cases e with
  | callStart d srcId dstId slot =>
    cases hcall : consumer.inFlight.dir d <;>
      simp [consumeEvent, Consumer.lane, Lane.take, Lane.close, StatsEvent.dir, foldIntoStats, hcall]
  | voiceFrame d transcode =>
    cases hcall : consumer.inFlight.dir d <;> simp [consumeEvent, Consumer.lane, Lane.take, StatsEvent.dir, hcall]
  | drop d =>
    cases hcall : consumer.inFlight.dir d <;> simp [consumeEvent, Consumer.lane, Lane.take, StatsEvent.dir, hcall]
  | callEnd d reason =>
    cases hcall : consumer.inFlight.dir d <;>
      simp [consumeEvent, Consumer.lane, Lane.take, Lane.close, StatsEvent.dir, foldIntoStats, hcall]

/-- An event leaves the other direction alone. -/
theorem consumeEvent_other (ranks : NearestRank) (minCallLogDuration : Duration) (consumer : Consumer) (now : Instant)
    {e : StatsEvent} {dir : CallDirection} (h : e.dir ≠ dir) :
    (consumeEvent ranks minCallLogDuration consumer (now, e)).1.lane dir = consumer.lane dir := by
  cases e with
  | callStart d srcId dstId slot =>
    have hd : ¬ d = dir := h
    cases hcall : consumer.inFlight.dir d <;> simp [consumeEvent, Consumer.lane, foldIntoStats, hcall, hd]
  | voiceFrame d transcode =>
    have hd : ¬ d = dir := h
    cases hcall : consumer.inFlight.dir d <;> simp [consumeEvent, Consumer.lane, hcall, hd]
  | drop d =>
    have hd : ¬ d = dir := h
    cases hcall : consumer.inFlight.dir d <;> simp [consumeEvent, Consumer.lane, hcall, hd]
  | callEnd d reason =>
    have hd : ¬ d = dir := h
    cases hcall : consumer.inFlight.dir d <;> simp [consumeEvent, Consumer.lane, foldIntoStats, hcall, hd]

/-! ## What a direction is owed -/

def StatsEvent.isCallStart (dir : CallDirection) : StatsEvent → Bool
  | .callStart d .. => d = dir
  | _ => false

def StatsEvent.isCallEnd (dir : CallDirection) : StatsEvent → Bool
  | .callEnd d _ => d = dir
  | _ => false

def StatsEvent.isVoiceFrame (dir : CallDirection) : StatsEvent → Bool
  | .voiceFrame d _ => d = dir
  | _ => false

def StatsEvent.isDrop (dir : CallDirection) : StatsEvent → Bool
  | .drop d => d = dir
  | _ => false

/-- A call of `dir` is in flight: the last start or end of that direction is a start. -/
def inFlight (dir : CallDirection) (events : List StatsEvent) : Bool :=
  (events.reverse.find? fun e => e.isCallStart dir || e.isCallEnd dir).any (·.isCallStart dir)

/-- How many events of a kind arrived while a call of `dir` was in flight. -/
def countInFlight (dir : CallDirection) (kind : StatsEvent → Bool) (events : List StatsEvent) : Nat :=
  (List.range events.length).countP fun i => events[i]?.any kind && inFlight dir (events.take i)

theorem inFlight_snoc (dir : CallDirection) (events : List StatsEvent) (e : StatsEvent) :
    inFlight dir (events ++ [e]) =
      if e.isCallStart dir then true else if e.isCallEnd dir then false else inFlight dir events := by
  unfold inFlight
  rw [List.reverse_concat, List.find?_cons]
  cases hstart : e.isCallStart dir <;> cases hend : e.isCallEnd dir <;> simp [hstart]

theorem countInFlight_snoc (dir : CallDirection) (kind : StatsEvent → Bool) (events : List StatsEvent)
    (e : StatsEvent) :
    countInFlight dir kind (events ++ [e]) =
      countInFlight dir kind events + if kind e && inFlight dir events then 1 else 0 := by
  unfold countInFlight
  rw [List.length_append, List.length_singleton, List.range_succ, List.countP_append, List.countP_singleton]
  congr 1
  · apply List.countP_congr
    intro i hi
    have hlt : i < events.length := List.mem_range.mp hi
    rw [List.getElem?_append_left hlt, List.take_append_of_le_length (Nat.le_of_lt hlt)]
  · simp

theorem countInFlight_le_length (dir : CallDirection) (kind : StatsEvent → Bool) (events : List StatsEvent) :
    countInFlight dir kind events ≤ events.length := by
  unfold countInFlight
  exact List.countP_le_length.trans_eq List.length_range

/-! ## Balances -/

namespace Lane

/-- Calls, frames and drops, in the counters or in the call in flight. -/
def calls (lane : Lane) : Nat := lane.stats.callsCompleted + if lane.inFlight.isSome then 1 else 0
def frames (lane : Lane) : Nat := lane.stats.voiceFrames + (lane.inFlight.map (·.frames)).getD 0
def drops (lane : Lane) : Nat := lane.stats.drops + (lane.inFlight.map (·.drops)).getD 0

@[simp]
theorem close_inFlight (lane : Lane) : lane.close.inFlight = none := by
  unfold close
  split
  · rfl
  · assumption

@[simp]
theorem close_stats (lane : Lane) : lane.close.stats = ⟨lane.calls, lane.frames, lane.drops⟩ := by
  unfold close calls frames drops
  cases lane.inFlight <;> rfl

variable (lane : Lane) (now : Instant) (e : StatsEvent)

theorem take_isSome :
    (lane.take (now, e)).inFlight.isSome =
      if e.isCallStart e.dir then true else if e.isCallEnd e.dir then false else lane.inFlight.isSome := by
  cases e <;> simp [take, StatsEvent.isCallStart, StatsEvent.isCallEnd, StatsEvent.dir]

theorem take_calls : (lane.take (now, e)).calls = lane.calls + if e.isCallStart e.dir then 1 else 0 := by
  cases e with
  | callStart d srcId dstId slot =>
    rw [calls, take, close_stats]
    simp [StatsEvent.isCallStart, StatsEvent.dir]
  | voiceFrame d transcode => simp [calls, take, StatsEvent.isCallStart]
  | drop d => simp [calls, take, StatsEvent.isCallStart]
  | callEnd d reason =>
    rw [take, calls, close_stats, close_inFlight]
    simp [StatsEvent.isCallStart]

theorem take_frames :
    (lane.take (now, e)).frames = lane.frames + if e.isVoiceFrame e.dir && lane.inFlight.isSome then 1 else 0 := by
  cases e with
  | callStart d srcId dstId slot =>
    rw [take, frames, close_stats]
    simp [StatsEvent.isVoiceFrame, CallAccumulator.new]
  | voiceFrame d transcode =>
    cases hcall : lane.inFlight <;>
      simp [frames, take, StatsEvent.isVoiceFrame, StatsEvent.dir, CallAccumulator.voiceFrame, hcall, Nat.add_assoc]
  | drop d => cases hcall : lane.inFlight <;> simp [frames, take, StatsEvent.isVoiceFrame, hcall]
  | callEnd d reason =>
    rw [take, frames, close_stats, close_inFlight]
    simp [StatsEvent.isVoiceFrame]

theorem take_drops :
    (lane.take (now, e)).drops = lane.drops + if e.isDrop e.dir && lane.inFlight.isSome then 1 else 0 := by
  cases e with
  | callStart d srcId dstId slot =>
    rw [take, drops, close_stats]
    simp [StatsEvent.isDrop, CallAccumulator.new]
  | voiceFrame d transcode =>
    cases hcall : lane.inFlight <;> simp [drops, take, StatsEvent.isDrop, CallAccumulator.voiceFrame, hcall]
  | drop d =>
    cases hcall : lane.inFlight <;> simp [drops, take, StatsEvent.isDrop, StatsEvent.dir, hcall, Nat.add_assoc]
  | callEnd d reason =>
    rw [take, drops, close_stats, close_inFlight]
    simp [StatsEvent.isDrop]

end Lane

/-! ## Any run -/

/-- Every call, frame and drop of the direction is in the counters or in the call in flight. -/
structure Accounts (dir : CallDirection) (events : List StatsEvent) (lane : Lane) : Prop where
  isSome : lane.inFlight.isSome = inFlight dir events
  calls : lane.calls = events.countP (·.isCallStart dir)
  frames : lane.frames = countInFlight dir (·.isVoiceFrame dir) events
  drops : lane.drops = countInFlight dir (·.isDrop dir) events

section
variable {dir : CallDirection} {events : List StatsEvent} {lane : Lane}

theorem accounts_own {e : StatsEvent} (h : Accounts e.dir events lane) (now : Instant) :
    Accounts e.dir (events ++ [e]) (lane.take (now, e)) := by
  constructor
  · rw [Lane.take_isSome, inFlight_snoc, h.isSome]
  · rw [Lane.take_calls, List.countP_append, List.countP_singleton, h.calls]
  · rw [Lane.take_frames, countInFlight_snoc, h.frames, h.isSome]
  · rw [Lane.take_drops, countInFlight_snoc, h.drops, h.isSome]

/-- An event of the other direction is owed nothing. -/
theorem accounts_other {e : StatsEvent} (h : Accounts dir events lane) (hdir : e.dir ≠ dir) :
    Accounts dir (events ++ [e]) lane := by
  have hkind : e.isCallStart dir = false ∧ e.isCallEnd dir = false ∧ e.isVoiceFrame dir = false ∧
      e.isDrop dir = false := by
    cases e <;>
      simpa [StatsEvent.dir, StatsEvent.isCallStart, StatsEvent.isCallEnd, StatsEvent.isVoiceFrame, StatsEvent.isDrop]
        using hdir
  obtain ⟨hstart, hend, hframe, hdrop⟩ := hkind
  constructor
  · rw [inFlight_snoc, hstart, hend]
    exact h.isSome
  · rw [List.countP_append, List.countP_singleton, hstart]
    exact h.calls
  · rw [countInFlight_snoc, hframe]
    exact h.frames
  · rw [countInFlight_snoc, hdrop]
    exact h.drops

end

/-- What the events of a direction keep, and the events of the other, holds after every run. -/
theorem lane_rule (ranks : NearestRank) (minCallLogDuration : Duration) {dir : CallDirection}
    (Inv : List (Instant × StatsEvent) → Lane → Prop) (hnew : Inv [] (Consumer.new.lane dir))
    (hown : ∀ events lane now e, e.dir = dir → Inv events lane → Inv (events ++ [(now, e)]) (lane.take (now, e)))
    (hother : ∀ events lane now e, e.dir ≠ dir → Inv events lane → Inv (events ++ [(now, e)]) lane)
    (events : List (Instant × StatsEvent)) :
    Inv events ((exec (consumeEvent ranks minCallLogDuration) .new events).1.lane dir) := by
  induction events using List.reverseRecOn with
  | nil => exact hnew
  | append_singleton events e ih =>
    obtain ⟨now, e⟩ := e
    rw [exec_snoc]
    by_cases hdir : e.dir = dir
    · have htake := hown events _ now e hdir ih
      subst hdir
      rw [consumeEvent_own]
      exact htake
    · rw [consumeEvent_other _ _ _ _ hdir]
      exact hother events _ now e hdir ih

theorem consumer_accounts (ranks : NearestRank) (minCallLogDuration : Duration) (dir : CallDirection)
    (events : List (Instant × StatsEvent)) :
    Accounts dir (events.map (·.2)) ((exec (consumeEvent ranks minCallLogDuration) .new events).1.lane dir) := by
  apply lane_rule ranks minCallLogDuration fun events => Accounts dir (events.map (·.2))
  · cases dir <;> exact ⟨rfl, rfl, rfl, rfl⟩
  · rintro events lane now e rfl h
    rw [List.map_append]
    exact accounts_own h now
  · intro events lane now e hdir h
    rw [List.map_append]
    exact accounts_other h hdir

/-- In fewer than 2^64 events no counter of a direction wraps, nor one of the call in flight. -/
theorem counts_fit (ranks : NearestRank) (minCallLogDuration : Duration) (dir : CallDirection)
    {events : List (Instant × StatsEvent)} (hlength : events.length < UInt64.size) :
    let lane := (exec (consumeEvent ranks minCallLogDuration) .new events).1.lane dir
    lane.calls < UInt64.size ∧ lane.frames < UInt64.size ∧ lane.drops < UInt64.size := by
  obtain ⟨-, hcalls, hframes, hdrops⟩ := consumer_accounts ranks minCallLogDuration dir events
  rw [← List.length_map (f := (·.2))] at hlength
  dsimp only
  rw [hcalls, hframes, hdrops]
  refine ⟨List.countP_le_length.trans_lt hlength, ?_, ?_⟩
  · exact (countInFlight_le_length _ _ _).trans_lt hlength
  · exact (countInFlight_le_length _ _ _).trans_lt hlength

/-- A direction is as its own events leave it, however the other's come between. -/
theorem lane_of_own_events (ranks : NearestRank) (minCallLogDuration : Duration) (dir : CallDirection)
    (events : List (Instant × StatsEvent)) :
    (exec (consumeEvent ranks minCallLogDuration) .new events).1.lane dir =
      (events.filter fun e => e.2.dir = dir).foldl Lane.take (Consumer.new.lane dir) := by
  apply lane_rule ranks minCallLogDuration fun events lane =>
    lane = (events.filter fun e => e.2.dir = dir).foldl Lane.take (Consumer.new.lane dir)
  · rfl
  · intro events lane now e hdir h
    rw [List.filter_append, List.foldl_append, ← h]
    simp [hdir]
  · intro events lane now e hdir h
    rw [List.filter_append, List.foldl_append, ← h]
    simp [hdir]

/-- After any events, paired or not, each direction has what it is owed. -/
theorem stats_conservation (ranks : NearestRank) (minCallLogDuration : Duration) (dir : CallDirection)
    (events : List (Instant × StatsEvent)) :
    let consumer := (exec (consumeEvent ranks minCallLogDuration) .new events).1
    let acc := consumer.inFlight.dir dir
    let stats := consumer.stats.dir dir
    let seen := events.map (·.2)
    acc.isSome = inFlight dir seen ∧
      stats.callsCompleted + (if inFlight dir seen then 1 else 0) = seen.countP (·.isCallStart dir) ∧
      stats.voiceFrames + (acc.map (·.frames)).getD 0 = countInFlight dir (·.isVoiceFrame dir) seen ∧
      stats.drops + (acc.map (·.drops)).getD 0 = countInFlight dir (·.isDrop dir) seen := by
  obtain ⟨hsome, hcalls, hframes, hdrops⟩ := consumer_accounts ranks minCallLogDuration dir events
  refine ⟨hsome, ?_, hframes, hdrops⟩
  rw [← hcalls, ← hsome]
  rfl

end DmrBridge
