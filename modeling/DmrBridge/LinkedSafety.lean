import DmrBridge.HomebrewDialogue
import DmrBridge.Linked

/-!
# The wire of the whole system

Among the other tasks the client runs as it runs alone, so what it says to the master is known; and the bridge
that the system refines knows which packets those are.
-/

open Run

namespace DmrBridge

variable {σ φ : Type}

namespace Linked

variable {P : Params σ φ} {C : ClientConfig} {s : Linked σ φ} {x y : Bridge σ φ} {os : Os} {act : BridgeAction}

/-! ## The client among the tasks -/

def gone (x : Bridge σ φ) : Bool := x.stopping && x.pending.isEmpty

/-- What the two sides share. -/
structure Coupled (s : Linked σ φ) : Prop where
  lanes : s.client.lanes = s.bridge.lanes
  control : s.client.control = s.bridge.control
  cancelled : s.client.cancelled = s.bridge.cancelled
  gone : s.client.voiceGone = gone s.bridge
  session : s.bridge.session = if s.client.phase = .returned then .closed else .down

theorem gone_eq_false_of_running (h : x.stopping = false) : gone x = false := by simp [gone, h]

theorem gone_eq_false_of_pending {o : Output} {pending : List Output} (h : x.pending = o :: pending) :
    gone x = false := by
  simp [gone, h]

/-- What a task does to the queues of the client, and that it does so only while it lives. -/
inductive QueueMove (x y : Bridge σ φ) : Prop where
  | same (hlanes : y.lanes = x.lanes) (hcontrol : y.control = x.control)
  | high (pkt : DmrdPacket) (hlive : gone x = false) (hlanes : y.lanes = x.lanes.pushHigh pkt)
      (hcontrol : y.control = x.control)
  | low (pkt : DmrdPacket) (hlive : gone x = false) (hsession : x.session ≠ .closed)
      (hroom : x.lanes.low.length < dmrdOutDepth) (hlanes : y.lanes = x.lanes.pushLow pkt)
      (hcontrol : y.control = x.control)
  | taken (event : ControlEvent) (hlive : gone x = false) (hlanes : y.lanes = x.lanes)
      (hcontrol : x.control = event :: y.control)

theorem push_queueMove (h : Bridge.push x = some y) : QueueMove x y ∧ gone x = false := by
  unfold Bridge.push at h
  split at h
  · cases h
  · rename_i o pending hpending
    have hlive := gone_eq_false_of_pending hpending
    refine ⟨?_, hlive⟩
    obtain ⟨u, hu, rfl⟩ := Option.map_eq_some_iff.mp h
    cases o with
    | control pkt =>
      cases hu
      exact .high pkt hlive rfl rfl
    | voice pkt queued =>
      simp only [Bridge.sendOne, Option.ite_none_right_eq_some, Option.some.injEq] at hu
      obtain ⟨hqueued, rfl⟩ := hu
      cases queued with
      | true =>
        obtain ⟨hsession, hroom⟩ := of_decide_eq_true hqueued.symm
        exact .low pkt hlive hsession hroom rfl rfl
      | false => exact .same rfl rfl
    | audio frame =>
      simp only [Bridge.sendOne] at hu
      split at hu
      · cases hu
        exact .same rfl rfl
      · simp only [Option.ite_none_right_eq_some, Option.some.injEq] at hu
        obtain ⟨-, rfl⟩ := hu
        exact .same rfl rfl
    | metadata | stats | panicked =>
      cases hu
      exact .same rfl rfl

theorem task_queueMove (hact : act.isTask = true) (h : Bridge.step P x act = some y) :
    QueueMove x y ∧ (gone x = true → gone y = true) ∧ (x.cancelled = true → y.cancelled = true) := by
  cases act with
  | send | lose | authenticate | close => cases hact
  | handle env ev =>
    simp only [Bridge.step, Bridge.takeInput, Option.ite_none_right_eq_some, Option.some.injEq] at h
    obtain ⟨⟨-, hrunning, -⟩, rfl⟩ := h
    have hlive := gone_eq_false_of_running hrunning
    exact ⟨.same rfl rfl, fun hg => by simp [hlive] at hg, fun hc => by simp [Bridge.react, hc]⟩
  | handleControl env =>
    simp only [Bridge.step, Bridge.takeControl] at h
    split at h
    · cases h
    · rename_i event control hcontrol
      simp only [Option.ite_none_right_eq_some, Option.some.injEq] at h
      obtain ⟨⟨hrunning, -⟩, rfl⟩ := h
      have hlive := gone_eq_false_of_running hrunning
      exact ⟨.taken event hlive rfl hcontrol, fun hg => by simp [hlive] at hg, fun hc => by simp [Bridge.react, hc]⟩
  | shutdown env =>
    simp only [Bridge.step, Bridge.shutdown, Option.ite_none_right_eq_some, Option.some.injEq] at h
    obtain ⟨⟨hrunning, -⟩, rfl⟩ := h
    have hlive := gone_eq_false_of_running hrunning
    exact ⟨.same rfl rfl, fun hg => by simp [hlive] at hg, fun hc => by simp [Bridge.react, hc]⟩
  | push =>
    obtain ⟨hmove, hlive⟩ := push_queueMove h
    refine ⟨hmove, fun hg => by simp [hlive] at hg, ?_⟩
    exact (task_fields (rfl : BridgeAction.push.isTask = true) h).2.1
  | cancel =>
    cases h
    exact ⟨.same rfl rfl, id, fun _ => rfl⟩
  | fmTake | fmWake | fmStop =>
    cases Bridge.step_move h with
    | fm => exact ⟨.same rfl rfl, id, id⟩

/-- Some steps of the others, as the client sees them when it is alone. -/
def Seen (C : ClientConfig) (c t : Client) : Prop := ∃ es, runs (Client.step C) c es = some t

theorem Seen.refl (C : ClientConfig) (c : Client) : Seen C c c := ⟨[], rfl⟩

theorem Seen.step {c t : Client} (os : Os) (a : ClientAction) (h : c.step C (os, a) = some t) : Seen C c t :=
  ⟨[(os, a)], by rw [runs_cons, h]; rfl⟩

theorem Seen.trans {c t u : Client} (h : Seen C c t) (h' : Seen C t u) : Seen C c u := by
  obtain ⟨es, hes⟩ := h
  obtain ⟨fs, hfs⟩ := h'
  exact ⟨es ++ fs, (runs_append hes).trans hfs⟩

theorem seen_queue (os : Os) {c : Client} (hlanes : c.lanes = x.lanes) (hcontrol : c.control = x.control)
    (hgone : c.voiceGone = gone x) (hsession : x.session = if c.phase = .returned then .closed else .down)
    (hmove : QueueMove x y) : Seen C c { c with lanes := y.lanes, control := y.control } := by
  cases hmove with
  | same hl hc =>
    rw [hl, hc, ← hlanes, ← hcontrol]
    exact .refl C c
  | high pkt hlive hl hc =>
    apply Seen.step os (.pushControl pkt)
    simp only [Client.step]
    rw [if_neg (by simp [hgone, hlive]), hl, hc, hlanes, ← hcontrol]
  | low pkt hlive hopen hroom hl hc =>
    have hphase : c.phase ≠ .returned := by
      intro hp
      rw [hp] at hsession
      exact hopen hsession
    apply Seen.step os (.pushVoice pkt)
    simp only [Client.step]
    rw [if_pos ⟨hgone.trans hlive, hphase, by rw [hlanes]; exact hroom⟩, hl, hc, hlanes, ← hcontrol]
  | taken event hlive hl hc =>
    apply Seen.step os .takeControl
    simp only [Client.step]
    rw [hcontrol, hc]
    dsimp only
    rw [if_neg (by simp [hgone, hlive]), hl, ← hlanes]

theorem seen_cancel (os : Os) (c : Client) (cancelled : Bool) (h : c.cancelled = true → cancelled = true) :
    Seen C c { c with cancelled } := by
  cases hc : c.cancelled with
  | true =>
    rw [h hc, ← hc]
    exact .refl C c
  | false =>
    cases cancelled with
    | true => exact Seen.step os .cancel rfl
    | false =>
      rw [← hc]
      exact .refl C c

theorem seen_drop (os : Os) (c : Client) (voiceGone : Bool) (h : c.voiceGone = true → voiceGone = true) :
    Seen C c { c with voiceGone } := by
  cases hc : c.voiceGone with
  | true =>
    rw [h hc, ← hc]
    exact .refl C c
  | false =>
    cases voiceGone with
    | true => exact Seen.step os .dropVoice rfl
    | false =>
      rw [← hc]
      exact .refl C c

theorem seen_share (os : Os) {c : Client} (hlanes : c.lanes = x.lanes) (hcontrol : c.control = x.control)
    (hcancelled : c.cancelled = x.cancelled) (hgone : c.voiceGone = gone x)
    (hsession : x.session = if c.phase = .returned then .closed else .down) (hact : act.isTask = true)
    (hstep : Bridge.step P x act = some y) : Seen C c (share c y) := by
  obtain ⟨hmove, hends, htoken⟩ := task_queueMove hact hstep
  have hqueue := seen_queue (C := C) os hlanes hcontrol hgone hsession hmove
  have hcancel := seen_cancel (C := C) os { c with lanes := y.lanes, control := y.control } y.cancelled
    (hcancelled ▸ htoken)
  have hdrop := seen_drop (C := C) os { c with lanes := y.lanes, control := y.control, cancelled := y.cancelled }
    (gone y) (hgone ▸ hends)
  exact (hqueue.trans hcancel).trans hdrop

theorem own_fields {c t : Client} {a : ClientAction} (hown : a.isOwn = true) (h : Client.Turn C c os a t) :
    t.cancelled = c.cancelled ∧ t.voiceGone = c.voiceGone := by
  have hfailed (u : Client) (authed : Bool) (source : ConnectFailure) (hc : u.cancelled = c.cancelled)
      (hg : u.voiceGone = c.voiceGone) :
      (u.failed os authed source).cancelled = c.cancelled ∧ (u.failed os authed source).voiceGone = c.voiceGone := by
    obtain ⟨-, -, hc', hg', -, -⟩ := failed_fields u os authed source
    exact ⟨hc'.trans hc, hg'.trans hg⟩
  cases h with
  | refused last => exact hfailed { c with events := c.events ++ last } _ _ rfl rfl
  | unsentPing => exact hfailed (((c.beat _).log _).log _) _ _ rfl rfl
  | lost => exact hfailed ((c.beat _).log _) _ _ rfl rfl
  | dismissed => exact hfailed ((c.log _).log _) _ _ rfl rfl
  | broken => exact hfailed (c.log _) _ _ rfl rfl
  | other lanes control dmrdIn taken cancelled voiceGone hother =>
    rw [hown] at hother
    cases hother
  | _ => exact ⟨rfl, rfl⟩

theorem coupled_client (h : Coupled s) {a : ClientAction} (hown : a.isOwn = true) {t : Client}
    (hstep : s.client.step C (os, a) = some t) : Coupled (afterClient s t) := by
  obtain ⟨hcancelled, hgone⟩ := own_fields hown (Client.step_turn hstep)
  exact ⟨rfl, rfl, hcancelled.trans h.cancelled, hgone.trans h.gone, rfl⟩

theorem coupled_task (h : Coupled s) {c : Client} (hphase : c.phase = s.client.phase) (hact : act.isTask = true)
    (hstep : Bridge.step P s.bridge act = some y) : Coupled (⟨share c y, y⟩ : Linked σ φ) := by
  refine ⟨rfl, rfl, rfl, rfl, ?_⟩
  obtain ⟨hsession, -, -⟩ := task_fields hact hstep
  change y.session = if c.phase = .returned then .closed else .down
  rw [hsession, h.session, hphase]

theorem seen_linked (h : Coupled s) {act : LinkedAction} {s' : Linked σ φ} (hstep : step P C s act = some s') :
    Seen C s.client s'.client ∧ Coupled s' := by
  cases act with
  | client os a =>
    simp only [step, clientStep, Option.ite_none_right_eq_some, Option.map_eq_some_iff] at hstep
    obtain ⟨hown, t, ht, rfl⟩ := hstep
    exact ⟨.step os a ht, coupled_client h hown ht⟩
  | task act =>
    simp only [step, taskStep, Option.ite_none_right_eq_some] at hstep
    obtain ⟨hact, hstep⟩ := hstep
    split at hstep
    · rename_i env pkt
      split at hstep
      · rename_i next dmrdIn hqueue
        simp only [Option.ite_none_right_eq_some, Option.map_eq_some_iff] at hstep
        obtain ⟨rfl, y, hy, rfl⟩ := hstep
        have hlive : s.client.voiceGone = false := by
          simp only [Bridge.step, Bridge.takeInput, Option.ite_none_right_eq_some] at hy
          exact h.gone.trans (gone_eq_false_of_running hy.1.2.1)
        have htake : Seen C s.client { s.client with dmrdIn, taken := s.client.taken ++ [next] } := by
          apply Seen.step ⟨0, true, true⟩ .takeDmrd
          simp only [Client.step, hqueue]
          rw [if_neg (by simp [hlive])]
        exact ⟨htake.trans (seen_share ⟨0, true, true⟩ h.lanes h.control h.cancelled h.gone h.session rfl hy),
          coupled_task h rfl rfl hy⟩
      · cases hstep
    · obtain ⟨y, hy, rfl⟩ := Option.map_eq_some_iff.mp hstep
      exact ⟨seen_share ⟨0, true, true⟩ h.lanes h.control h.cancelled h.gone h.session hact hy,
        coupled_task h rfl hact hy⟩

theorem coupled_start (vocoder : σ) (filter : Option φ) : Coupled (start vocoder filter) := ⟨rfl, rfl, rfl, rfl, rfl⟩

/-- Among the other tasks the client runs as it runs alone. -/
theorem client_alone {vocoder : σ} {filter : Option φ} {as : List LinkedAction} {t : Linked σ φ}
    (hrun : runs (step P C) (start vocoder filter) as = some t) :
    ∃ cs, runs (Client.step C) .start cs = some t.client := by
  have hkeep (s : Linked σ φ) (act : LinkedAction) (s' : Linked σ φ)
      (h : (∃ cs, runs (Client.step C) .start cs = some s.client) ∧ Coupled s) (hstep : step P C s act = some s') :
      (∃ cs, runs (Client.step C) .start cs = some s'.client) ∧ Coupled s' := by
    obtain ⟨⟨cs, hcs⟩, hcoupled⟩ := h
    obtain ⟨⟨es, hes⟩, hnext⟩ := seen_linked hcoupled hstep
    exact ⟨⟨cs ++ es, (runs_append hcs).trans hes⟩, hnext⟩
  exact (runs_keep hkeep ⟨⟨[], rfl⟩, coupled_start vocoder filter⟩ hrun).1

end Linked

/-! ## The packets of a session -/

def ClientEvent.dmrdSent : ClientEvent → Option DmrdPacket
  | .sent (.dmrd pkt) _ => some pkt
  | _ => none

namespace Client

variable {C : ClientConfig} {c t : Client} {os : Os} {a : ClientAction}

/-- What a session has taken from its queues is what it has put on its socket. -/
structure Drawn (c : Client) : Prop where
  said : Said c
  fresh : c.phase = .notifying → c.lanes.sent = []
  drawn : c.phase.inSession = true → c.events.filterMap ClientEvent.dmrdSent = c.lanes.sent

theorem dmrdSent_events (h : Handshake) : h.events.filterMap ClientEvent.dmrdSent = [] := by
  rw [List.filterMap_eq_nil_iff]
  intro e he
  simp only [Handshake.events, Handshake.configuration, Handshake.proof, Handshake.greeting, List.mem_append,
    List.mem_cons, List.mem_map, List.not_mem_nil, or_false] at he
  obtain (((rfl | ⟨data, -, rfl⟩) | rfl | rfl) | rfl | rfl) | rfl := he <;> rfl

theorem Drawn.stay (h : Drawn c) (hsaid : Said t) (hphase : c.phase.inSession = true) (e : ClientEvent)
    (hevents : t.events = c.events ++ [e]) (hsent : t.lanes.sent = c.lanes.sent ++ e.dmrdSent.toList)
    (hnext : t.phase ≠ .notifying) : Drawn t := by
  refine ⟨hsaid, fun hp => absurd hp hnext, fun _ => ?_⟩
  rw [hevents, hsent, List.filterMap_append, h.drawn hphase]
  cases hd : e.dmrdSent <;> simp [hd]

/-- Outside a session there is nothing to show. -/
theorem drawn_of_phase (hsaid : Said t) (hnotify : t.phase ≠ .notifying) (hsession : t.phase.inSession = false) :
    Drawn t :=
  ⟨hsaid, fun hp => absurd hp hnotify, fun hs => by rw [hsession] at hs; cases hs⟩

theorem failed_phase (c : Client) (os : Os) (authed : Bool) (source : ConnectFailure) :
    (c.failed os authed source).phase ≠ .notifying ∧ (c.failed os authed source).phase.inSession = false := by
  unfold failed
  split <;> exact ⟨by simp, rfl⟩

theorem leave_phase (c : Client) (os : Os) (result : Except ConnectFailure Unit) :
    (c.leave os result).phase ≠ .notifying ∧ (c.leave os result).phase.inSession = false := by
  unfold leave
  cases result with
  | ok => exact ⟨by simp, rfl⟩
  | error source => exact failed_phase _ os true source

theorem drawn_step (h : Drawn c) (hturn : Turn C c os a t) : Drawn t := by
  have hsaid := said_step h.said hturn
  cases hturn with
  | greet | prove | configure | ready | wake | quit => exact drawn_of_phase hsaid (by simp) rfl
  | ignore hphase => exact drawn_of_phase hsaid (by simp [log, hphase]) (by simp [log, hphase, ClientPhase.inSession])
  | drained => exact ⟨hsaid, fun _ => rfl, fun hs => by cases hs⟩
  | opened hact hphase =>
    refine ⟨hsaid, fun hp => by simp [openSession] at hp, fun _ => ?_⟩
    have hcurrent := h.said.current
    rw [hphase] at hcurrent
    obtain ⟨shake, hevents⟩ := hcurrent
    change (c.events ++ [ClientEvent.reset]).filterMap ClientEvent.dmrdSent = c.lanes.sent
    rw [h.fresh hphase, hevents, List.filterMap_append, dmrdSent_events]
    rfl
  | refused last source =>
    obtain ⟨hnotify, hsession⟩ := failed_phase { c with events := c.events ++ last } os false source
    exact drawn_of_phase hsaid hnotify hsession
  | unsentPing | lost | dismissed | broken | closed =>
    obtain ⟨hnotify, hsession⟩ := leave_phase _ os _
    exact drawn_of_phase hsaid hnotify hsession
  | ping hphase =>
    exact h.stay hsaid (by rw [hphase]; rfl) (.sent .ping true) rfl (List.append_nil _).symm (by simp)
  | @pong tracker nextTick data hphase | @inbound tracker nextTick data pkt hphase =>
    exact h.stay hsaid (by rw [hphase]; rfl) (.received data) rfl (List.append_nil _).symm (by simp)
  | @noise tracker nextTick data hphase =>
    exact h.stay hsaid (by rw [hphase]; rfl) (.received data) rfl (List.append_nil _).symm (by simp [log, hphase])
  | @deliver tracker nextTick pkt hphase =>
    exact h.stay hsaid (by rw [hphase]; rfl) (.forwarded pkt) rfl (List.append_nil _).symm (by simp)
  | @send tracker nextTick pkt lanes hact hphase hlive hpop hsent =>
    exact h.stay hsaid (by rw [hphase]; rfl) (.sent (.dmrd pkt) os.sends) rfl hsent (by simp [log, hphase])
  | other lanes control dmrdIn taken cancelled voiceGone hother hsent =>
    exact ⟨hsaid, fun hp => hsent.trans (h.fresh hp), fun hp => (h.drawn hp).trans hsent.symm⟩

theorem drawn_run {as : List (Os × ClientAction)} (hrun : runs (step C) start as = some t) : Drawn t := by
  have hinit : Drawn start := drawn_of_phase ⟨List.forall_mem_nil _, rfl⟩ (by simp [start]) rfl
  exact runs_keep (fun _ _ _ h hstep => drawn_step h (step_turn hstep)) hinit hrun

end Client

/-! ## The system -/

namespace Linked

theorem sent_eq {t : Linked σ φ} {b : Bridge σ φ} (h : Refines t b) {cs : List (Os × ClientAction)}
    (hrun : runs (Client.step C) .start cs = some t.client) (hsession : t.client.phase.inSession = true) :
    b.lanes.sent = t.client.events.filterMap ClientEvent.dmrdSent := by
  have hdrains : t.client.phase.drains = false := by
    cases hp : t.client.phase <;> simp [hp, ClientPhase.inSession, ClientPhase.drains] at hsession ⊢
  rw [h.settled hdrains, ← h.lanes, (Client.drawn_run hrun).drawn hsession]

/-- An interleaving of the client's own steps with those of the other tasks is one of the bridge, as long as no step
of the others comes between the drain of the queues and the NetworkReset and `voice_task` ends only on the token. -/
theorem refines_bridge (P : Params σ φ) (C : ClientConfig) (vocoder : σ) (filter : Option φ) (as : List LinkedAction)
    (t : Linked σ φ) (hcalm : Along (step P C) Undisturbed (start vocoder filter) as)
    (hrun : runs (step P C) (start vocoder filter) as = some t) :
    ∃ bs b, runs (Bridge.step P) (.start vocoder filter) bs = some b ∧
      b.machine = t.bridge.machine ∧ b.session = t.client.phase.toSession ∧ b.fmSent = t.bridge.fmSent ∧
        b.built = t.bridge.built ∧
          (t.client.phase.inSession = true → b.lanes.sent = t.client.events.filterMap ClientEvent.dmrdSent) := by
  obtain ⟨bs, b, hbs, h⟩ := linked_matched P C vocoder filter hcalm hrun
  obtain ⟨cs, hcs⟩ := client_alone hrun
  refine ⟨bs, b, hbs, ?_, ?_, ?_, ?_, sent_eq h hcs⟩
  · rw [h.same]
  · rw [h.same]
  · rw [h.same]
  · rw [h.same]

/-- Whatever the client puts on the socket of a session is of a call whose header it has put there before, and which
did not start before the session. Besides what `refines_bridge` assumes, the client takes a packet or opens a session
only between two handlers of `voice_task`, and each call has a stream of its own. -/
theorem wire_safe (P : Params σ φ) (C : ClientConfig) (vocoder : σ) (filter : Option φ) (as : List LinkedAction)
    (t : Linked σ φ) (hcalm : Along (step P C) Undisturbed (start vocoder filter) as)
    (hok : Along (step P C) (Sequential P) (start vocoder filter) as)
    (hrun : runs (step P C) (start vocoder filter) as = some t) (hsession : t.client.phase.inSession = true) :
    HeaderFirst (t.client.events.filterMap ClientEvent.dmrdSent) ∧
      ∀ pkt ∈ t.client.events.filterMap ClientEvent.dmrdSent, ∀ sid ∈ t.bridge.earlier, streamOf pkt ≠ some sid := by
  obtain ⟨bs, b, hbs, halong, h⟩ := linked_orderly P C vocoder filter hcalm hok hrun
  obtain ⟨cs, hcs⟩ := client_alone hrun
  have hinit : Bridge.SessionInv (.start vocoder filter : Bridge σ φ) :=
    ⟨⟨headerFirst_nil, by simp [Bridge.start, Lanes.empty]⟩, by simp [Bridge.start], by simp [Bridge.start],
      by simp [Bridge.start]⟩
  have hinv := runs_invariant (fun s a u hs hok hstep => Bridge.sessionInv_step hs hok.1 hok.2 hstep) hinit halong hbs
  have hearlier : b.earlier = t.bridge.earlier := by rw [h.same]
  rw [← sent_eq h hcs hsession, ← hearlier]
  exact ⟨hinv.safe.headerFirst, hinv.safe.later⟩

/-- A login, a call of one burst, and two of its packets. -/
def sampleRun : List LinkedAction :=
  Client.login.map (fun e => .client e.1 e.2) ++ [.task (.handleControl (sampleEnv 0 0))] ++
    (Bridge.oneBurst 3).map .task ++
    [.client (Client.onTime 6) .send, .client (Client.onTime 7) .send]

theorem refines_bridge_sample :
    ∃ t bs b, runs (step sampleParams Client.sampleConfig) (start () none) sampleRun = some t ∧
      runs (Bridge.step sampleParams) (.start () none) bs = some b ∧ b.session = .up ∧
        b.lanes.sent = t.client.events.filterMap ClientEvent.dmrdSent := by
  have hrun : (runs (step sampleParams Client.sampleConfig) (start () none) sampleRun).any
      (fun t => t.client.phase.inSession) = true := by decide +kernel
  obtain ⟨t, ht, hsession⟩ := (Option.any_eq_true ..).mp hrun
  obtain ⟨bs, b, hbs, -, hphase, -, -, hsent⟩ :=
    refines_bridge sampleParams Client.sampleConfig () none sampleRun t (by decide +kernel) ht
  refine ⟨t, bs, b, ht, hbs, ?_, hsent hsession⟩
  rw [hphase]
  cases hp : t.client.phase <;> simp [hp, ClientPhase.inSession, ClientPhase.toSession] at hsession ⊢

theorem wire_safe_sample :
    ∃ t, runs (step sampleParams Client.sampleConfig) (start () none) sampleRun = some t ∧
      (t.client.events.filterMap ClientEvent.dmrdSent).length = 2 ∧
        HeaderFirst (t.client.events.filterMap ClientEvent.dmrdSent) := by
  have hrun : (runs (step sampleParams Client.sampleConfig) (start () none) sampleRun).any (fun t =>
      t.client.phase.inSession && decide ((t.client.events.filterMap ClientEvent.dmrdSent).length = 2)) = true := by
    decide +kernel
  obtain ⟨t, ht, hboth⟩ := (Option.any_eq_true ..).mp hrun
  obtain ⟨hsession, hlength⟩ := (Bool.and_eq_true ..).mp hboth
  have hsafe := wire_safe sampleParams Client.sampleConfig () none sampleRun t (by decide +kernel)
    (by decide +kernel) ht hsession
  exact ⟨t, ht, of_decide_eq_true hlength, hsafe.1⟩

end Linked

end DmrBridge
