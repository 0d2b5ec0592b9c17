import DmrBridge.Bridge

/-!
# Sessions

A new session drains both queues and resets the machine before it takes anything else. So what a
session sends belongs to calls whose header it has sent, and to no call that began before it.
-/

open Run

namespace DmrBridge

variable {σ φ : Type}

/-! ## Packets behind their headers -/

def HasHeader (ps : List DmrdPacket) (sid : Option UInt32) : Prop :=
  ∃ hdr ∈ ps, isHeader hdr = true ∧ streamOf hdr = sid

def HeaderFirst (ps : List DmrdPacket) : Prop :=
  ∀ pre pkt post, ps = pre ++ pkt :: post → isHeader pkt = true ∨ HasHeader pre (streamOf pkt)

theorem HasHeader.mono {ps qs : List DmrdPacket} {sid : Option UInt32} (h : HasHeader ps sid) (hsub : ps ⊆ qs) :
    HasHeader qs sid := by
  obtain ⟨hdr, hmem, hhdr⟩ := h
  exact ⟨hdr, hsub hmem, hhdr⟩

theorem headerFirst_nil : HeaderFirst [] := by
  intro pre pkt post h
  simp at h

theorem HeaderFirst.of_append {ps qs : List DmrdPacket} (h : HeaderFirst (ps ++ qs)) : HeaderFirst ps := by
  intro pre pkt post hps
  apply h pre pkt (post ++ qs)
  rw [hps]
  simp

theorem HeaderFirst.snoc {ps : List DmrdPacket} {pkt : DmrdPacket} (h : HeaderFirst ps)
    (hpkt : isHeader pkt = true ∨ HasHeader ps (streamOf pkt)) : HeaderFirst (ps ++ [pkt]) := by
  intro pre x post heq
  rcases List.eq_nil_or_concat post with rfl | ⟨post, y, rfl⟩
  · obtain ⟨rfl, hx⟩ := List.append_inj' heq rfl
    obtain rfl : pkt = x := by simpa using hx
    exact hpkt
  · have hps : ps = pre ++ x :: post := by
      have hsplit : ps ++ [pkt] = pre ++ x :: post ++ [y] := by
        rw [heq]
        simp
      exact (List.append_inj' hsplit rfl).1
    exact h pre x post hps

/-! ## The queues of a session -/

def Push.apply (lanes : Lanes DmrdPacket) : Push → Lanes DmrdPacket
  | .control pkt => lanes.pushHigh pkt
  | .voice pkt queued => if queued then lanes.pushLow pkt else lanes

/-- The queues once the pending sends are made. -/
def settle (lanes : Lanes DmrdPacket) (ps : List Push) : Lanes DmrdPacket := ps.foldl Push.apply lanes

/-- What the first queue brings to the wire. -/
def front (lanes : Lanes DmrdPacket) : List DmrdPacket := lanes.sent ++ lanes.high

structure LanesInv (lanes : Lanes DmrdPacket) (earlier : List UInt32) : Prop where
  headerFirst : HeaderFirst (front lanes)
  low : ∀ pkt ∈ lanes.low, HasHeader (front lanes) (streamOf pkt)
  later : ∀ pkt ∈ lanes.order, ∀ sid ∈ earlier, streamOf pkt ≠ some sid

/-- The open call has its header on the way and began in this session. -/
def CallInv (lanes : Lanes DmrdPacket) (earlier : List UInt32) (call : Option OpenCall) : Prop :=
  ∀ c, call = some c → c.stream ∉ earlier ∧ HasHeader (front lanes) (some c.stream)

theorem lanesInv_empty (earlier : List UInt32) : LanesInv .empty earlier :=
  ⟨headerFirst_nil, by simp [Lanes.empty], by simp [Lanes.empty, Lanes.order]⟩

theorem front_pop {lanes lanes' : Lanes DmrdPacket} (hpop : lanes.pop = some lanes') : front lanes ⊆ front lanes' := by
  unfold front
  rcases Lanes.pop_cases hpop with ⟨hfront, -⟩ | ⟨pkt, hhigh, hhigh', -, hsent⟩
  · rw [hfront]
    exact List.Subset.refl _
  · rw [hhigh, hhigh', hsent]
    simp

theorem LanesInv.pop {lanes lanes' : Lanes DmrdPacket} {earlier : List UInt32} (h : LanesInv lanes earlier)
    (hpop : lanes.pop = some lanes') : LanesInv lanes' earlier := by
  have horder := Lanes.order_pop hpop
  rcases Lanes.pop_cases hpop with ⟨hfront, hlow⟩ | ⟨pkt, hhigh, hhigh', hlow, hsent⟩
  · refine ⟨?_, ?_, ?_⟩
    · unfold front
      rw [hfront]
      exact h.headerFirst
    · unfold front
      rw [hfront, hlow]
      exact h.low
    · rw [horder]
      exact h.later
  · have hfront : front lanes' = front lanes ++ [pkt] := by
      unfold front
      rw [hhigh, hhigh', hsent]
      simp
    refine ⟨?_, ?_, ?_⟩
    · rw [hfront]
      apply h.headerFirst.snoc
      exact .inr (h.low pkt (by rw [hlow]; exact List.mem_cons_self))
    · intro q hq
      rw [hfront]
      have hq' : q ∈ lanes.low := by
        rw [hlow]
        exact List.mem_cons_of_mem _ hq
      exact (h.low q hq').mono (List.subset_append_left _ _)
    · rw [horder]
      exact h.later

theorem LanesInv.pushHigh {lanes : Lanes DmrdPacket} {earlier : List UInt32} {pkt : DmrdPacket}
    (h : LanesInv lanes earlier) (hpkt : isHeader pkt = true ∨ HasHeader (front lanes) (streamOf pkt))
    (hlater : ∀ sid ∈ earlier, streamOf pkt ≠ some sid) : LanesInv (lanes.pushHigh pkt) earlier := by
  have hfront : front (lanes.pushHigh pkt) = front lanes ++ [pkt] := by simp [front, Lanes.pushHigh]
  refine ⟨?_, ?_, ?_⟩
  · rw [hfront]
    exact h.headerFirst.snoc hpkt
  · intro q hq
    rw [hfront]
    exact (h.low q hq).mono (List.subset_append_left _ _)
  · intro q hq
    have hmem : q ∈ lanes.order ∨ q = pkt := by
      simp only [Lanes.order, Lanes.pushHigh, List.mem_append, List.mem_singleton] at hq ⊢
      tauto
    rcases hmem with hold | rfl
    · exact h.later q hold
    · exact hlater

theorem LanesInv.pushLow {lanes : Lanes DmrdPacket} {earlier : List UInt32} {pkt : DmrdPacket}
    (h : LanesInv lanes earlier) (hpkt : HasHeader (front lanes) (streamOf pkt))
    (hlater : ∀ sid ∈ earlier, streamOf pkt ≠ some sid) : LanesInv (lanes.pushLow pkt) earlier := by
  refine ⟨h.headerFirst, ?_, ?_⟩
  · intro q hq
    rcases List.mem_append.mp hq with hold | hnew
    · exact h.low q hold
    · rw [List.mem_singleton.mp hnew]
      exact hpkt
  · intro q hq
    rw [Lanes.order_pushLow] at hq
    rcases List.mem_append.mp hq with hold | hnew
    · exact h.later q hold
    · rw [List.mem_singleton.mp hnew]
      exact hlater

theorem LanesInv.burst {lanes : Lanes DmrdPacket} {earlier : List UInt32} {call call' : OpenCall} {ps : List Push}
    (h : LanesInv lanes earlier) (hcall : CallInv lanes earlier (some call)) (hpush : BurstPush call call' ps) :
    LanesInv (settle lanes ps) earlier ∧ CallInv (settle lanes ps) earlier (some call') ∧
      call'.stream = call.stream := by
  cases hpush with
  | skip => exact ⟨h, hcall, rfl⟩
  | sent pkt queued hl =>
    obtain ⟨hlater, hheader⟩ := hcall call rfl
    have hstream : streamOf pkt = some call.stream := by simp [streamOf, hl]
    have hcall' : CallInv lanes earlier (some { call with seq := call.seq + 1 }) := by
      rintro c ⟨⟩
      exact ⟨hlater, hheader⟩
    cases queued with
    | false => exact ⟨h, hcall', rfl⟩
    | true =>
      refine ⟨h.pushLow ?_ ?_, hcall', rfl⟩
      · rw [hstream]
        exact hheader
      · intro sid hsid he
        rw [hstream] at he
        cases he
        exact hlater hsid

theorem LanesInv.move {lanes : Lanes DmrdPacket} {earlier : List UInt32} {fresh : UInt32} {ev : PttEvent}
    {before after : Option OpenCall} {ps : List Push} (h : LanesInv lanes earlier)
    (hcall : CallInv lanes earlier before) (hmove : CallMove fresh ev before after ps)
    (hfresh : ∀ c, before = none → after = some c → c.stream ∉ earlier) :
    LanesInv (settle lanes ps) earlier ∧ CallInv (settle lanes ps) earlier after := by
  cases hmove with
  | stay => exact ⟨h, hcall⟩
  | start hdr hl _ =>
    have hhdr : isHeader hdr = true := by simp [isHeader, hl]
    have hstream : streamOf hdr = some fresh := by simp [streamOf, hl]
    have hnew : fresh ∉ earlier := hfresh _ rfl rfl
    refine ⟨h.pushHigh (.inl hhdr) ?_, ?_⟩
    · intro sid hsid he
      rw [hstream] at he
      cases he
      exact hnew hsid
    · rintro c ⟨⟩
      refine ⟨hnew, hdr, ?_, hhdr, hstream⟩
      simp [settle, front, Push.apply, Lanes.pushHigh]
  | burst hpush =>
    obtain ⟨hlanes, hcall', -⟩ := h.burst hcall hpush
    exact ⟨hlanes, hcall'⟩
  | @finish call call' _ hflush term hl =>
    obtain ⟨hlanes, hcall', -⟩ := h.burst hcall hflush
    obtain ⟨hlater, hheader⟩ := hcall' call' rfl
    have hstream : streamOf term = some call'.stream := by simp [streamOf, hl]
    unfold settle at *
    rw [List.foldl_append]
    refine ⟨hlanes.pushHigh (.inr ?_) ?_, by simp [CallInv]⟩
    · rw [hstream]
      exact hheader
    · intro sid hsid he
      rw [hstream] at he
      cases he
      exact hlater hsid
  | reset => exact ⟨h, by simp [CallInv]⟩

/-! ## Whole runs -/

namespace Bridge

/-- Handlers are atomic: neither the loop nor a new session comes between two sends of one. -/
def Atomic (s : Bridge σ φ) : BridgeAction → Prop
  | .send | .authenticate => s.pending = []
  | _ => True

instance (s : Bridge σ φ) : ∀ a, Decidable (Atomic s a)
  | .send | .authenticate => inferInstanceAs (Decidable (s.pending = []))
  | .handle .. | .handleControl _ | .shutdown _ | .push | .lose | .close | .cancel | .fmTake _ | .fmWake | .fmStop =>
    .isTrue trivial

/-- What the session has put on its socket. -/
structure SessionSafe (s : Bridge σ φ) : Prop where
  headerFirst : HeaderFirst s.lanes.sent
  /-- Nothing of a call that started before the session. -/
  later : ∀ pkt ∈ s.lanes.sent, ∀ sid ∈ s.earlier, streamOf pkt ≠ some sid

structure SessionInv (s : Bridge σ φ) : Prop where
  safe : SessionSafe s
  earlier : ∀ sid ∈ s.earlier, sid ∈ s.started
  lanes : s.session = .up → s.cancelled = false → LanesInv (settle s.lanes (pushes s.pending)) s.earlier
  call : s.session = .up → s.cancelled = false → s.control = [] →
    CallInv (settle s.lanes (pushes s.pending)) s.earlier s.machine.state.openCall

theorem SessionInv.idle {s : Bridge σ φ} (h : SessionInv s) (hpending : s.pending = []) (hup : s.session = .up)
    (hcancelled : s.cancelled = false) : LanesInv s.lanes s.earlier := by
  have hlanes := h.lanes hup hcancelled
  rw [hpending] at hlanes
  exact hlanes

theorem SessionInv.react {P : Params σ φ} {s : Bridge σ φ} (h : SessionInv s) (env : Env) (ev : PttEvent)
    (hpending : s.pending = []) (hcontrol : s.cancelled = true ∨ s.control = [])
    (hnew : ∀ sid ∈ opened s.machine.state (react P s env ev).machine.state, sid ∉ s.started) :
    SessionInv (Bridge.react P s env ev) := by
  have hmove := handle_callMove P ⟨s.machine.state, s.machine.codec.observe s.cancelled⟩ env ev
  have hboth (hup : s.session = .up) (hcancelled : (Bridge.react P s env ev).cancelled = false) :
      LanesInv (settle s.lanes (pushes (Bridge.react P s env ev).pending)) s.earlier ∧
        CallInv (settle s.lanes (pushes (Bridge.react P s env ev).pending)) s.earlier
          (Bridge.react P s env ev).machine.state.openCall := by
    have hlive : s.cancelled = false := by
      simp only [Bridge.react, Bool.or_eq_false_iff] at hcancelled
      exact hcancelled.1
    have hnone : s.control = [] := by simpa [hlive] using hcontrol
    have hcall := h.call hup hlive hnone
    rw [hpending] at hcall
    apply (h.idle hpending hup hlive).move hcall hmove
    intro c hbefore hafter hmem
    have hopened : opened s.machine.state (Bridge.react P s env ev).machine.state = some c.stream := by
      unfold opened
      rw [hbefore]
      exact congrArg (Option.map (·.stream)) hafter
    exact hnew c.stream hopened (h.earlier c.stream hmem)
  exact ⟨⟨h.safe.headerFirst, h.safe.later⟩, fun sid hsid => List.mem_append_right _ (h.earlier sid hsid),
    fun hup hc => (hboth hup hc).1, fun hup hc _ => (hboth hup hc).2⟩

theorem react_control (P : Params σ φ) (s : Bridge σ φ) (env : Env) (event : ControlEvent) :
    (react P s env (.control event)).machine.state = .idle ∧
      pushes (react P s env (.control event)).pending = [] := by
  cases event
  cases hs : s.machine.state <;> simp [react, DmrBridge.handle, onControl, onNetworkReset, hs, pushes, pushOf]

theorem sessionInv_step {P : Params σ φ} {s t : Bridge σ φ} {a : BridgeAction} (h : SessionInv s)
    (hatomic : Atomic s a) (hnew : NewStream P s a) (hstep : step P s a = some t) : SessionInv t := by
  cases step_move hstep with
  | handle hev hpending hcancelled hcontrol => exact h.react _ _ hpending (.inr hcontrol) hnew
  | @handleControl env event control hpending hcancelled hcontrol =>
    obtain ⟨hidle, hnone⟩ := react_control P s env event
    refine ⟨⟨h.safe.headerFirst, h.safe.later⟩, fun sid hsid => List.mem_append_right _ (h.earlier sid hsid),
      fun hup _ => ?_, fun _ _ _ c hc => ?_⟩
    · have hlanes := h.idle hpending hup hcancelled
      rw [hnone]
      exact hlanes
    · rw [hidle] at hc
      cases hc
  | @shutdown env hpending hend =>
    have hclosed : opened s.machine.state (Bridge.react P s env .shutdown).machine.state = none :=
      opened_of_not_audio P ⟨s.machine.state, s.machine.codec.observe s.cancelled⟩ env .shutdown (by simp)
    have hreact := h.react (P := P) env .shutdown hpending hend (by simp [hclosed])
    exact ⟨⟨hreact.safe.headerFirst, hreact.safe.later⟩, hreact.earlier, hreact.lanes, hreact.call⟩
  | control hpending | voice hpending | full hpending =>
    have hlanes := h.lanes
    have hcall := h.call
    rw [hpending] at hlanes hcall
    exact ⟨⟨h.safe.headerFirst, h.safe.later⟩, h.earlier, hlanes, hcall⟩
  | other audioOut hpending ho =>
    have hlanes := h.lanes
    have hcall := h.call
    rw [hpending, pushes, List.filterMap_cons, ho] at hlanes hcall
    exact ⟨⟨h.safe.headerFirst, h.safe.later⟩, h.earlier, hlanes, hcall⟩
  | send hup hcancelled hpop =>
    have hpending : s.pending = [] := hatomic
    have hlanes := (h.idle hpending hup hcancelled).pop hpop
    have hcall := h.call hup hcancelled
    rw [hpending] at hcall
    refine ⟨⟨hlanes.headerFirst.of_append, fun pkt hpkt => ?_⟩, h.earlier, fun _ _ => ?_, fun _ _ hcontrol c hc => ?_⟩
    · apply hlanes.later pkt
      exact List.mem_append_left _ (List.mem_append_left _ hpkt)
    · rw [hpending]
      exact hlanes
    · obtain ⟨hlater, hheader⟩ := hcall hcontrol c hc
      rw [hpending]
      exact ⟨hlater, hheader.mono (front_pop hpop)⟩
  | lose => exact ⟨⟨h.safe.headerFirst, h.safe.later⟩, h.earlier, by simp, by simp⟩
  | authenticate hdown hcancelled =>
    have hpending : s.pending = [] := hatomic
    refine ⟨⟨headerFirst_nil, by simp [Lanes.empty]⟩, fun sid hsid => hsid, fun _ _ => ?_, fun _ _ hcontrol => ?_⟩
    · rw [hpending]
      exact lanesInv_empty _
    · simp at hcontrol
  | close => exact ⟨⟨h.safe.headerFirst, h.safe.later⟩, h.earlier, by simp, by simp⟩
  | cancel => exact ⟨⟨h.safe.headerFirst, h.safe.later⟩, h.earlier, by simp, by simp⟩
  | fm => exact ⟨⟨h.safe.headerFirst, h.safe.later⟩, h.earlier, h.lanes, h.call⟩

/-- Whatever a session sends is of a call whose header it has sent, and that did not start before it. -/
theorem session_safe (P : Params σ φ) (vocoder : σ) (filter : Option φ) (as : List BridgeAction) (t : Bridge σ φ)
    (hatomic : Along (step P) Atomic (start vocoder filter) as)
    (hnew : Along (step P) (NewStream P) (start vocoder filter) as)
    (hrun : runs (step P) (start vocoder filter) as = some t) : SessionSafe t := by
  have hinit : SessionInv (start vocoder filter : Bridge σ φ) :=
    ⟨⟨headerFirst_nil, by simp [start, Lanes.empty]⟩, by simp [start], by simp [start], by simp [start]⟩
  have hinv := runs_invariant (fun s a u h hok hstep => sessionInv_step h hok.1 hok.2 hstep) hinit
    (along_and hatomic hnew) hrun
  exact hinv.safe

/-- The session is lost with a burst on its queue and the call open; the next one starts with stream 4. -/
theorem session_safe_sample :
    ∃ t, runs (step sampleParams) (start () none)
        (connect ++ oneBurst 3 ++ [.send, .lose] ++ connect ++ [.push] ++ oneBurst 4 ++ [.send, .send]) = some t ∧
      SessionSafe t := by
  have hsome : (runs (step sampleParams) (start () none)
      (connect ++ oneBurst 3 ++ [.send, .lose] ++ connect ++ [.push] ++ oneBurst 4 ++ [.send, .send])).isSome =
        true := by
    decide +kernel
  obtain ⟨t, ht⟩ := Option.isSome_iff_exists.mp hsome
  exact ⟨t, ht, session_safe sampleParams () none _ t (by decide +kernel) (by decide +kernel) ht⟩

end Bridge

end DmrBridge
