import DmrBridge.Stats
import DmrBridge.Lib.Counters
import Mathlib.Algebra.Order.BigOperators.Group.List

/-!
# The periodic log lines

`summary_task` and `heartbeat_task` beside `consume_events`: each of the three goes its way one atomic
operation at a time, and nothing keeps a line from being read half before and half after a call ends.
-/

open Run Counters

namespace DmrBridge

inductive Metric where
  | calls
  | frames
  | drops
  deriving DecidableEq

/-- One of the six `AtomicU64`s. -/
abbrev Counter := CallDirection × Metric

def Stats.get (stats : Stats) : Counter → Nat
  | (dir, .calls) => (stats.dir dir).callsCompleted
  | (dir, .frames) => (stats.dir dir).voiceFrames
  | (dir, .drops) => (stats.dir dir).drops

/-- The `fetch_add`s of `fold_into_stats`, if the event ends a call. -/
def fetchAdds (consumer : Consumer) (e : StatsEvent) : List (Counter × Nat) :=
  let call := match e with
    | .callStart .. | .callEnd .. => consumer.inFlight.dir e.dir
    | _ => none
  match call with
  | some acc => [((e.dir, .calls), 1), ((e.dir, .frames), acc.frames), ((e.dir, .drops), acc.drops)]
  | none => []

/-- What `summary_task` loads in a tick. -/
def summaryLoads : List Counter :=
  [(.fmToDmr, .calls), (.fmToDmr, .frames), (.fmToDmr, .drops), (.dmrToFm, .calls), (.dmrToFm, .frames),
    (.dmrToFm, .drops)]

structure SummaryTask where
  prev : Counter → Nat
  reading : Reading Counter

/-- A load, the first of a tick if the last tick is done. A negative difference would be an overflow. -/
def SummaryTask.load (counters : Counter → Nat) (t : SummaryTask) : SummaryTask × List (Counter → Int) :=
  let reading := (t.reading.start summaryLoads).load counters
  if reading.todo.isEmpty then (⟨reading.read, reading⟩, [fun c => reading.read c - t.prev c])
  else (⟨t.prev, reading⟩, [])

/-- What `heartbeat_task` loads for the idle check, and then for the line. -/
def idleLoads : List Counter := [(.fmToDmr, .frames), (.dmrToFm, .frames)]

def lineLoads : List Counter := [(.fmToDmr, .calls), (.fmToDmr, .drops), (.dmrToFm, .calls), (.dmrToFm, .drops)]

structure HeartbeatTask where
  lastFrames : CallDirection → Nat
  /-- Past the idle check of this tick. -/
  active : Bool
  reading : Reading Counter

def HeartbeatTask.load (skipIdle : Bool) (counters : Counter → Nat) (t : HeartbeatTask) :
    HeartbeatTask × List (Counter → Nat) :=
  let reading := (t.reading.start idleLoads).load counters
  let frames dir := reading.read (dir, .frames)
  if !reading.todo.isEmpty then ({ t with reading }, [])
  else if t.active then ({ t with active := false, reading }, [reading.read])
  else if skipIdle && frames .fmToDmr == t.lastFrames .fmToDmr && frames .dmrToFm == t.lastFrames .dmrToFm then
    ({ t with reading }, [])
  else (⟨frames, true, { reading with todo := lineLoads }⟩, [])

/-- The three tasks on the shared counters, with the lines logged so far. -/
structure StatsTasks where
  consumer : Consumer
  /-- The `fetch_add`s of the call that ended last that are still to come. -/
  pending : List (Counter × Nat)
  counters : Counter → Nat
  summary : SummaryTask
  heartbeat : HeartbeatTask
  summaries : List (Counter → Int)
  heartbeats : List (Counter → Nat)

inductive StatsAction where
  | event (now : Instant) (e : StatsEvent)
  | fetchAdd
  | summaryLoad
  | heartbeatLoad

namespace StatsTasks

def start : StatsTasks :=
  { consumer := .new
    pending := []
    counters := fun _ => 0
    summary := ⟨fun _ => 0, ⟨fun _ => 0, []⟩⟩
    heartbeat := ⟨fun _ => 0, false, ⟨fun _ => 0, []⟩⟩
    summaries := []
    heartbeats := [] }

def step (ranks : NearestRank) (minCallLogDuration : Duration) (skipIdle : Bool) (s : StatsTasks) :
    StatsAction → Option StatsTasks
  | .event now e =>
    if s.pending.isEmpty then
      some { s with
        consumer := (consumeEvent ranks minCallLogDuration s.consumer (now, e)).1
        pending := fetchAdds s.consumer e }
    else none
  | .fetchAdd =>
    match s.pending with
    | [] => none
    | a :: pending => some { s with counters := Counters.fetchAdd s.counters a, pending }
  | .summaryLoad =>
    let (summary, lines) := s.summary.load s.counters
    some { s with summary, summaries := s.summaries ++ lines }
  | .heartbeatLoad =>
    let (heartbeat, lines) := s.heartbeat.load skipIdle s.counters
    some { s with heartbeat, heartbeats := s.heartbeats ++ lines }

def events (acts : List StatsAction) : List (Instant × StatsEvent) :=
  acts.filterMap fun
    | .event now e => some (now, e)
    | _ => none

end StatsTasks

/-! ## One step of each -/

/-- An event adds to the totals what its `fetch_add`s bring to the counters. -/
theorem consumeEvent_get (ranks : NearestRank) (minCallLogDuration : Duration) (consumer : Consumer) (now : Instant)
    (e : StatsEvent) (c : Counter) :
    (consumeEvent ranks minCallLogDuration consumer (now, e)).1.stats.get c =
      consumer.stats.get c + owed (fetchAdds consumer e) c := by
  have hfold (dir : CallDirection) (acc : CallAccumulator) : (foldIntoStats consumer.stats dir acc).get c =
      consumer.stats.get c + owed [((dir, .calls), 1), ((dir, .frames), acc.frames), ((dir, .drops), acc.drops)] c := by
    obtain ⟨dir', metric⟩ := c
    by_cases h : dir = dir'
    · subst h
      cases metric <;> simp [foldIntoStats, Stats.get, owed]
    · cases metric <;> simp [foldIntoStats, Stats.get, owed, h]
  cases e with
  | callStart dir srcId dstId slot =>
    rw [consumeEvent, fetchAdds]
    dsimp only [StatsEvent.dir]
    cases consumer.inFlight.dir dir with
    | none => rfl
    | some acc => exact hfold dir acc
  | voiceFrame dir transcode =>
    rw [consumeEvent]
    cases consumer.inFlight.dir dir <;> rfl
  | drop dir =>
    rw [consumeEvent]
    cases consumer.inFlight.dir dir <;> rfl
  | callEnd dir reason =>
    rw [consumeEvent, fetchAdds]
    dsimp only [StatsEvent.dir]
    cases consumer.inFlight.dir dir with
    | none => rfl
    | some acc => exact hfold dir acc

/-- What a summary's lines are known to hold, whatever has been counted since. -/
structure SummaryTask.Sound (counters : Counter → Nat) (t : SummaryTask) (lines : List (Counter → Int)) : Prop where
  prev_le : ∀ c, t.prev c ≤ t.reading.read c
  read_le : ∀ c, t.reading.read c ≤ counters c
  sum : ∀ c, (lines.map (· c)).sum = t.prev c
  nonneg : ∀ line ∈ lines, ∀ c, 0 ≤ line c

theorem SummaryTask.Sound.load {counters : Counter → Nat} {t : SummaryTask} {lines : List (Counter → Int)}
    (h : t.Sound counters lines) : (t.load counters).1.Sound counters (lines ++ (t.load counters).2) := by
  have hstart : ∀ c, (t.reading.start summaryLoads).read c ≤ counters c := by
    rw [Reading.start_read]
    exact h.read_le
  have hgrown (c : Counter) : t.prev c ≤ ((t.reading.start summaryLoads).load counters).read c := by
    have hload := Reading.le_load hstart c
    rw [Reading.start_read] at hload
    exact (h.prev_le c).trans hload
  unfold SummaryTask.load
  dsimp only
  split
  · refine ⟨fun c => Nat.le_refl _, Reading.load_le hstart, fun c => ?_, ?_⟩
    · rw [List.map_append, List.sum_append, h.sum c, List.map_singleton, List.sum_singleton]
      exact add_sub_cancel _ _
    · refine List.forall_mem_append.mpr ⟨h.nonneg, List.forall_mem_singleton.mpr fun c => ?_⟩
      exact Int.sub_nonneg.mpr (Int.ofNat_le.mpr (hgrown c))
  · rw [List.append_nil]
    exact ⟨hgrown, Reading.load_le hstart, h.sum, h.nonneg⟩

/-- A line never goes back behind one before it and, if idle ticks are skipped, counts frames that one did not. -/
def Advances (skipIdle : Bool) (earlier later : Counter → Nat) : Prop :=
  (∀ c, earlier c ≤ later c) ∧ (skipIdle = true → ∃ dir, earlier (dir, .frames) < later (dir, .frames))

/-- Lines so far, with the zeros that the task starts from as the line before the first. -/
structure HeartbeatTask.Sound (skipIdle : Bool) (counters : Counter → Nat) (t : HeartbeatTask)
    (lines : List (Counter → Nat)) : Prop where
  read_le : ∀ c, t.reading.read c ≤ counters c
  line_le : ∀ line ∈ lines, ∀ c, line c ≤ t.reading.read c
  advance : lines.Pairwise (Advances skipIdle)
  last_le : ∀ dir, t.lastFrames dir ≤ t.reading.read (dir, .frames)
  idle : t.active = false → ∀ line ∈ lines, ∀ dir, line (dir, .frames) ≤ t.lastFrames dir
  /-- The frames of the line are those of the idle check. -/
  fixed : t.active = true → t.reading.todo ≠ [] ∧ (∀ c ∈ t.reading.todo, c.2 ≠ .frames) ∧
    ∀ dir, t.reading.read (dir, .frames) = t.lastFrames dir
  busy : t.active = true → skipIdle = true → ∀ line ∈ lines, ∃ dir, line (dir, .frames) < t.reading.read (dir, .frames)

theorem HeartbeatTask.Sound.load {skipIdle : Bool} {counters : Counter → Nat} {t : HeartbeatTask}
    {lines : List (Counter → Nat)} (h : t.Sound skipIdle counters lines) :
    (t.load skipIdle counters).1.Sound skipIdle counters (lines ++ (t.load skipIdle counters).2) := by
  have hstart : ∀ c, (t.reading.start idleLoads).read c ≤ counters c := by
    rw [Reading.start_read]
    exact h.read_le
  have hle := Reading.load_le hstart
  have hgrown (c : Counter) : t.reading.read c ≤ ((t.reading.start idleLoads).load counters).read c := by
    have hload := Reading.le_load hstart c
    rwa [Reading.start_read] at hload
  have htodo := Reading.load_todo counters (t.reading.start idleLoads)
  -- past the idle check, frames are not read again
  have hfixed (hactive : t.active = true) :
      (∀ c ∈ ((t.reading.start idleLoads).load counters).todo, c.2 ≠ .frames) ∧
        ∀ dir, ((t.reading.start idleLoads).load counters).read (dir, .frames) = t.lastFrames dir := by
    obtain ⟨hne, hnone, hframes⟩ := h.fixed hactive
    rw [htodo, Reading.start_of_ne hne]
    refine ⟨fun c hc => hnone c (List.mem_of_mem_tail hc), fun dir => ?_⟩
    rw [Reading.load_read_of_notMem fun hmem => hnone _ hmem rfl, hframes]
  unfold HeartbeatTask.load
  dsimp only
  generalize (t.reading.start idleLoads).load counters = reading at hle hgrown hfixed
  have hlines : ∀ line ∈ lines, ∀ c, line c ≤ reading.read c :=
    fun line hline c => (h.line_le line hline c).trans (hgrown c)
  have hlast (dir : CallDirection) : t.lastFrames dir ≤ reading.read (dir, .frames) := (h.last_le dir).trans (hgrown _)
  split
  · rename_i hmore
    rw [List.append_nil]
    refine ⟨hle, hlines, h.advance, hlast, h.idle, fun hactive => ⟨by simpa using hmore, hfixed hactive⟩, ?_⟩
    intro hactive hskip line hline
    obtain ⟨dir, hdir⟩ := h.busy hactive hskip line hline
    exact ⟨dir, hdir.trans_le (hgrown _)⟩
  split
  · rename_i hactive
    obtain ⟨-, hframes⟩ := hfixed hactive
    refine ⟨hle, ?_, ?_, hlast, ?_, fun hfalse => absurd hfalse Bool.false_ne_true,
      fun hfalse => absurd hfalse Bool.false_ne_true⟩
    · exact List.forall_mem_append.mpr ⟨hlines, List.forall_mem_singleton.mpr fun c => Nat.le_refl _⟩
    · refine List.pairwise_append.mpr ⟨h.advance, List.pairwise_singleton _ _, fun line hline later hlater => ?_⟩
      rw [List.mem_singleton.mp hlater]
      refine ⟨hlines line hline, fun hskip => ?_⟩
      obtain ⟨dir, hdir⟩ := h.busy hactive hskip line hline
      exact ⟨dir, hdir.trans_le (hgrown _)⟩
    · intro _
      refine List.forall_mem_append.mpr ⟨fun line hline dir => ?_, List.forall_mem_singleton.mpr fun dir => ?_⟩
      · rw [← hframes dir]
        exact hlines line hline _
      · exact (hframes dir).le
  rename_i hidle
  rw [Bool.not_eq_true] at hidle
  split
  · rw [List.append_nil]
    exact ⟨hle, hlines, h.advance, hlast, h.idle, fun hactive => absurd (hidle.symm.trans hactive) Bool.false_ne_true,
      fun hactive => absurd (hidle.symm.trans hactive) Bool.false_ne_true⟩
  · rename_i hcheck
    rw [List.append_nil]
    refine ⟨hle, hlines, h.advance, fun dir => Nat.le_refl _, fun hactive => absurd hactive.symm Bool.false_ne_true,
      ?_, ?_⟩
    · intro _
      have hsome : lineLoads ≠ [] := by decide
      have hnone : ∀ c ∈ lineLoads, c.2 ≠ .frames := by decide
      exact ⟨hsome, hnone, fun dir => rfl⟩
    · intro _ hskip line hline
      obtain ⟨dir, hmoved⟩ : ∃ dir, reading.read (dir, .frames) ≠ t.lastFrames dir := by
        by_contra hnone
        push Not at hnone
        exact hcheck (by simp [hskip, hnone])
      exact ⟨dir, (h.idle hidle line hline dir).trans_lt (Nat.lt_of_le_of_ne (hlast dir) hmoved.symm)⟩

/-! ## Any interleaving -/

section
variable {ranks : NearestRank} {minCallLogDuration : Duration} {skipIdle : Bool}

/-- After the actions so far. -/
structure StatsTasks.Sound (ranks : NearestRank) (minCallLogDuration : Duration) (skipIdle : Bool)
    (past : List StatsAction) (s : StatsTasks) : Prop where
  consumer : s.consumer = (exec (consumeEvent ranks minCallLogDuration) .new (StatsTasks.events past)).1
  owed : ∀ c, s.counters c + owed s.pending c = s.consumer.stats.get c
  summary : s.summary.Sound s.counters s.summaries
  heartbeat : s.heartbeat.Sound skipIdle s.counters ((fun _ => 0) :: s.heartbeats)

theorem StatsTasks.Sound.start : StatsTasks.start.Sound ranks minCallLogDuration skipIdle [] where
  consumer := rfl
  owed := by
    rintro ⟨dir, metric⟩
    cases dir <;> cases metric <;> rfl
  summary := ⟨fun _ => Nat.le_refl _, fun _ => Nat.le_refl _, fun _ => rfl, List.forall_mem_nil _⟩
  heartbeat :=
    { read_le := fun _ => Nat.le_refl _
      line_le := List.forall_mem_singleton.mpr fun _ => Nat.le_refl _
      advance := List.pairwise_singleton _ _
      last_le := fun _ => Nat.le_refl _
      idle := fun _ => List.forall_mem_singleton.mpr fun _ => Nat.le_refl _
      fixed := fun hactive => absurd hactive Bool.false_ne_true
      busy := fun hactive => absurd hactive Bool.false_ne_true }

theorem StatsTasks.Sound.step {past : List StatsAction} {s t : StatsTasks} {a : StatsAction}
    (h : s.Sound ranks minCallLogDuration skipIdle past)
    (ht : StatsTasks.step ranks minCallLogDuration skipIdle s a = some t) :
    t.Sound ranks minCallLogDuration skipIdle (past ++ [a]) := by
  have hevents (hquiet : StatsTasks.events [a] = []) : StatsTasks.events (past ++ [a]) = StatsTasks.events past := by
    rw [StatsTasks.events, List.filterMap_append]
    exact (congrArg _ hquiet).trans (List.append_nil _)
  cases a with
  | event now e =>
    simp only [StatsTasks.step] at ht
    split at ht
    · rename_i hsettled
      cases ht
      have hpending : s.pending = [] := by simpa using hsettled
      have hall : StatsTasks.events (past ++ [.event now e]) = StatsTasks.events past ++ [(now, e)] := by
        rw [StatsTasks.events, List.filterMap_append]
        rfl
      refine ⟨?_, fun c => ?_, h.summary, h.heartbeat⟩
      · rw [hall, exec_snoc, ← h.consumer]
      · have howed := h.owed c
        rw [hpending] at howed
        rw [consumeEvent_get, ← howed]
        rfl
    · cases ht
  | fetchAdd =>
    simp only [StatsTasks.step] at ht
    split at ht
    · cases ht
    · rename_i a pending hpending
      cases ht
      have hgrown := le_fetchAdd s.counters a
      refine ⟨(hevents rfl).symm ▸ h.consumer, fun c => ?_, ?_, ?_⟩
      · rw [fetchAdd_owed, ← hpending]
        exact h.owed c
      · exact ⟨h.summary.prev_le, fun c => (h.summary.read_le c).trans (hgrown c), h.summary.sum, h.summary.nonneg⟩
      · exact { h.heartbeat with read_le := fun c => (h.heartbeat.read_le c).trans (hgrown c) }
  | summaryLoad =>
    cases ht
    exact ⟨(hevents rfl).symm ▸ h.consumer, h.owed, h.summary.load, h.heartbeat⟩
  | heartbeatLoad =>
    cases ht
    exact ⟨(hevents rfl).symm ▸ h.consumer, h.owed, h.summary, h.heartbeat.load⟩

theorem StatsTasks.sound_of_runs {acts : List StatsAction} {s : StatsTasks}
    (hrun : runs (StatsTasks.step ranks minCallLogDuration skipIdle) .start acts = some s) :
    s.Sound ranks minCallLogDuration skipIdle acts := by
  have halong : Along (StatsTasks.step ranks minCallLogDuration skipIdle) (fun _ _ => True) .start acts :=
    along_of_forall (fun _ _ => trivial) _ _
  apply runs_invariant_past _ .start halong hrun
  intro past s a t _ h _ ht
  exact h.step ht

/-- What events bring to a counter in the end: calls, and what comes while the call is in flight. -/
def brought (seen : List StatsEvent) : Counter → Nat
  | (dir, .calls) => seen.countP (·.isCallStart dir)
  | (dir, .frames) => countInFlight dir (·.isVoiceFrame dir) seen
  | (dir, .drops) => countInFlight dir (·.isDrop dir) seen

/-- The counters have at most what the events brought, and all of it once no add and no call is under way. -/
theorem StatsTasks.Sound.counters_le {past : List StatsAction} {s : StatsTasks}
    (h : s.Sound ranks minCallLogDuration skipIdle past) (c : Counter) :
    s.counters c ≤ brought ((StatsTasks.events past).map (·.2)) c ∧
      (s.pending = [] → inFlight c.1 ((StatsTasks.events past).map (·.2)) = false →
        s.counters c = brought ((StatsTasks.events past).map (·.2)) c) := by
  obtain ⟨dir, metric⟩ := c
  have haccounts := consumer_accounts ranks minCallLogDuration dir (StatsTasks.events past)
  rw [← h.consumer] at haccounts
  obtain ⟨hsome, hcalls, hframes, hdrops⟩ := haccounts
  have howed := h.owed (dir, metric)
  have hget : s.consumer.stats.get (dir, metric) ≤ brought ((StatsTasks.events past).map (·.2)) (dir, metric) ∧
      (inFlight dir ((StatsTasks.events past).map (·.2)) = false →
        s.consumer.stats.get (dir, metric) = brought ((StatsTasks.events past).map (·.2)) (dir, metric)) := by
    rw [← hsome]
    have hempty (hnone : (s.consumer.lane dir).inFlight.isSome = false) : (s.consumer.lane dir).inFlight = none :=
      Option.isNone_iff_eq_none.mp (Option.isSome_eq_false_iff.mp hnone)
    cases metric with
    | calls =>
      rw [brought, ← hcalls, Lane.calls]
      refine ⟨Nat.le_add_right _ _, fun hnone => ?_⟩
      rw [hempty hnone]
      rfl
    | frames =>
      rw [brought, ← hframes, Lane.frames]
      refine ⟨Nat.le_add_right _ _, fun hnone => ?_⟩
      rw [hempty hnone]
      rfl
    | drops =>
      rw [brought, ← hdrops, Lane.drops]
      refine ⟨Nat.le_add_right _ _, fun hnone => ?_⟩
      rw [hempty hnone]
      rfl
  refine ⟨(Nat.le_add_right _ _).trans (howed.le.trans hget.1), fun hpending hquiet => ?_⟩
  rw [hpending] at howed
  exact howed.trans (hget.2 hquiet)

theorem brought_le_length (seen : List StatsEvent) (c : Counter) : brought seen c ≤ seen.length := by
  obtain ⟨dir, metric⟩ := c
  cases metric with
  | calls => exact List.countP_le_length
  | frames => exact countInFlight_le_length _ _ _
  | drops => exact countInFlight_le_length _ _ _

/-- None of the six wraps in fewer than 2^64 events. -/
theorem StatsTasks.counters_fit {acts : List StatsAction} {s : StatsTasks}
    (hrun : runs (StatsTasks.step ranks minCallLogDuration skipIdle) .start acts = some s)
    (hlength : (StatsTasks.events acts).length < UInt64.size) (c : Counter) : s.counters c < UInt64.size := by
  rw [← List.length_map (f := (·.2))] at hlength
  have hbrought := ((StatsTasks.sound_of_runs hrun).counters_le c).1
  exact hbrought.trans_lt ((brought_le_length _ c).trans_lt hlength)

theorem mem_summaryLoads (c : Counter) : c ∈ summaryLoads := by
  obtain ⟨dir, metric⟩ := c
  cases dir <;> cases metric <;> decide

/-- What is left of a tick takes the counters as they are, if no add comes between. -/
theorem summary_rest {s u : StatsTasks} {n : Nat} (htodo : s.summary.reading.todo.length = n + 1)
    (hcovers : s.summary.reading.Covers s.counters summaryLoads)
    (hrun : runs (StatsTasks.step ranks minCallLogDuration skipIdle) s (List.replicate (n + 1) .summaryLoad) = some u) :
    u.summary.prev = s.counters := by
  induction n generalizing s with
  | zero =>
    have hdone : (s.summary.reading.load s.counters).todo = [] := by
      rw [Reading.load_todo]
      exact List.eq_nil_of_length_eq_zero (by rw [List.length_tail, htodo])
    rw [List.replicate_succ, runs_cons, StatsTasks.step, SummaryTask.load,
      Reading.start_of_ne (List.ne_nil_of_length_eq_add_one htodo), hdone] at hrun
    cases hrun
    funext c
    exact Reading.covers_load hcovers c (mem_summaryLoads c) (hdone ▸ List.not_mem_nil)
  | succ n ih =>
    have hlength : (s.summary.reading.load s.counters).todo.length = n + 1 := by
      rw [Reading.load_todo, List.length_tail, htodo, Nat.add_sub_cancel]
    have hmore : (s.summary.reading.load s.counters).todo.isEmpty = false := by
      rw [List.isEmpty_eq_false_iff]
      exact List.ne_nil_of_length_eq_add_one hlength
    rw [List.replicate_succ, runs_cons, StatsTasks.step, SummaryTask.load,
      Reading.start_of_ne (List.ne_nil_of_length_eq_add_one htodo), hmore] at hrun
    have hcovers' := Reading.covers_load hcovers
    exact ih (s := { s with
      summary := ⟨s.summary.prev, s.summary.reading.load s.counters⟩
      summaries := s.summaries ++ [] }) hlength hcovers' hrun

/-- So does a tick from its first load on. -/
theorem summary_tick {s u : StatsTasks} (hidle : s.summary.reading.todo = [])
    (hrun : runs (StatsTasks.step ranks minCallLogDuration skipIdle) s (List.replicate 6 .summaryLoad) = some u) :
    u.summary.prev = s.counters := by
  have hstart : (s.summary.reading.start summaryLoads).todo = summaryLoads := Reading.start_todo hidle
  have hlength : ((s.summary.reading.start summaryLoads).load s.counters).todo.length = 5 := by
    rw [Reading.load_todo, hstart]
    rfl
  have hmore : ((s.summary.reading.start summaryLoads).load s.counters).todo.isEmpty = false := by
    rw [List.isEmpty_eq_false_iff]
    exact List.ne_nil_of_length_eq_add_one hlength
  rw [List.replicate_succ, runs_cons, StatsTasks.step, SummaryTask.load, hmore] at hrun
  have hcovers : ((s.summary.reading.start summaryLoads).load s.counters).Covers s.counters summaryLoads :=
    Reading.covers_load (Reading.covers_start hidle)
  exact summary_rest (s := { s with
    summary := ⟨s.summary.prev, (s.summary.reading.start summaryLoads).load s.counters⟩
    summaries := s.summaries ++ [] }) hlength hcovers hrun

/-- The periods of the summary add up: no line has a negative count, none of what the events brought is in two lines,
and after a tick with nothing under way none of it is missing. -/
theorem summaries_account {acts : List StatsAction} {s : StatsTasks}
    (hrun : runs (StatsTasks.step ranks minCallLogDuration skipIdle) .start acts = some s) :
    let seen := (StatsTasks.events acts).map (·.2)
    (∀ line ∈ s.summaries, ∀ c, 0 ≤ line c) ∧
      (∀ c, (s.summaries.map (· c)).sum ≤ brought seen c) ∧
      ∀ t, runs (StatsTasks.step ranks minCallLogDuration skipIdle) s (List.replicate 6 .summaryLoad) = some t →
        s.summary.reading.todo = [] → s.pending = [] →
        ∀ c, inFlight c.1 seen = false → (t.summaries.map (· c)).sum = brought seen c := by
  have hsound := StatsTasks.sound_of_runs hrun
  refine ⟨hsound.summary.nonneg, fun c => ?_, fun t ht hidle hpending c hquiet => ?_⟩
  · rw [hsound.summary.sum c]
    have hread := (hsound.summary.prev_le c).trans (hsound.summary.read_le c)
    exact Int.ofNat_le.mpr (hread.trans (hsound.counters_le c).1)
  · have hend := StatsTasks.sound_of_runs ((runs_append hrun).trans ht)
    rw [hend.summary.sum c, summary_tick hidle ht, (hsound.counters_le c).2 hpending hquiet]

/-- A call of one frame: the first ticks come between its `fetch_add`s, the second when all are done. -/
def shortCall : List StatsAction :=
  [.event 0 (.callStart .dmrToFm sampleSrc 2 .one), .event 20 (.voiceFrame .dmrToFm 5),
    .event 40 (.callEnd .dmrToFm .normal), .fetchAdd] ++ List.replicate 6 .summaryLoad ++
    [.heartbeatLoad, .heartbeatLoad, .fetchAdd, .fetchAdd] ++ List.replicate 6 .heartbeatLoad ++
    List.replicate 6 .summaryLoad

/-- The call is in one line and its frame in the next. -/
theorem summaries_account_shortCall :
    let seen := (StatsTasks.events shortCall).map (·.2)
    ∃ s t, runs (StatsTasks.step ⟨id, id⟩ 0 true) .start shortCall = some s ∧
      runs (StatsTasks.step ⟨id, id⟩ 0 true) s (List.replicate 6 .summaryLoad) = some t ∧
      s.summaries.map summaryLoads.map = [[0, 0, 0, 1, 0, 0], [0, 0, 0, 0, 1, 0]] ∧
      summaryLoads.map (brought seen) = [0, 0, 0, 1, 1, 0] ∧
      (∀ line ∈ s.summaries, ∀ c, 0 ≤ line c) ∧ (∀ c, (s.summaries.map (· c)).sum ≤ brought seen c) ∧
      ∀ c, (t.summaries.map (· c)).sum = brought seen c := by
  dsimp only
  obtain ⟨hnonneg, hle, hquiet⟩ := @summaries_account ⟨id, id⟩ 0 true shortCall _ rfl
  refine ⟨_, _, rfl, rfl, by decide, by decide, hnonneg, hle, fun c => hquiet _ rfl rfl rfl c ?_⟩
  obtain ⟨dir, metric⟩ := c
  cases dir <;> rfl

/-- Counts in heartbeat lines never go back and are never ahead of the events. Where idle ticks are skipped, every
line has frames that the line before it did not have. -/
theorem heartbeats_advance {acts : List StatsAction} {s : StatsTasks}
    (hrun : runs (StatsTasks.step ranks minCallLogDuration skipIdle) .start acts = some s) :
    s.heartbeats.Pairwise (Advances skipIdle) ∧
      ∀ line ∈ s.heartbeats, Advances skipIdle (fun _ => 0) line ∧
        ∀ c, line c ≤ brought ((StatsTasks.events acts).map (·.2)) c := by
  have hsound := StatsTasks.sound_of_runs hrun
  obtain ⟨hfirst, hlines⟩ := List.pairwise_cons.mp hsound.heartbeat.advance
  refine ⟨hlines, fun line hline => ⟨hfirst line hline, fun c => ?_⟩⟩
  have hread := (hsound.heartbeat.line_le line (List.mem_cons_of_mem _ hline) c).trans (hsound.heartbeat.read_le c)
  exact hread.trans (hsound.counters_le c).1

/-- The first tick has no frame to tell of yet. -/
theorem heartbeats_advance_shortCall :
    ∃ s, runs (StatsTasks.step ⟨id, id⟩ 0 true) .start shortCall = some s ∧
      s.heartbeats.map summaryLoads.map = [[0, 0, 0, 1, 1, 0]] ∧ s.heartbeats.Pairwise (Advances true) ∧
      ∀ line ∈ s.heartbeats, Advances true (fun _ => 0) line ∧
        ∀ c, line c ≤ brought ((StatsTasks.events shortCall).map (·.2)) c :=
  ⟨_, rfl, rfl, heartbeats_advance rfl⟩

end

end DmrBridge
