import DmrBridge.Bridge

/-!
# The order of a stream on the wire

Header and terminator go through one queue and the bursts between them through another, and the
first is served before the second. A terminator that enters its queue while a burst of the call
still waits overtakes it; nothing else goes wrong.
-/

open Run

namespace DmrBridge

variable {σ φ : Type}

/-! ## Calls as sequences of labels -/

def labelsOn (sid : UInt32) (ps : List DmrdPacket) : List Label := (ps.filter (onStream sid)).filterMap labelOf

def burstLabel (sid : UInt32) (k : Nat) : Label := ⟨sid, .burst, UInt8.ofNat (k + 1)⟩

/-- Header, `n` bursts and perhaps the terminator, numbered from 0. -/
def callLabels (sid : UInt32) (n : Nat) (ended : Bool) : List Label :=
  ⟨sid, .header, 0⟩ :: (List.range n).map (burstLabel sid) ++
    if ended then [⟨sid, .terminator, UInt8.ofNat (n + 1)⟩] else []

theorem labelsOn_append (sid : UInt32) (ps qs : List DmrdPacket) :
    labelsOn sid (ps ++ qs) = labelsOn sid ps ++ labelsOn sid qs := by
  simp [labelsOn]

theorem labelsOn_single {pkt : DmrdPacket} {l : Label} (h : labelOf pkt = some l) (sid : UInt32) :
    labelsOn sid [pkt] = if l.stream = sid then [l] else [] := by
  by_cases hs : l.stream = sid <;> simp [labelsOn, onStream, streamOf, h, hs]

theorem labelsOn_prefix {sid : UInt32} {ps qs : List DmrdPacket}
    (h : ps.filter (onStream sid) <+: qs.filter (onStream sid)) : labelsOn sid ps <+: labelsOn sid qs := by
  obtain ⟨rest, hrest⟩ := h
  unfold labelsOn
  rw [← hrest, List.filterMap_append]
  exact List.prefix_append _ _

theorem callLabels_snoc (sid : UInt32) (n : Nat) :
    callLabels sid n false ++ [⟨sid, .burst, UInt8.ofNat (n + 1)⟩] = callLabels sid (n + 1) false := by
  simp [callLabels, List.range_succ, burstLabel]

theorem callLabels_finish (sid : UInt32) (n : Nat) :
    callLabels sid n false ++ [⟨sid, .terminator, UInt8.ofNat (n + 1)⟩] = callLabels sid n true := by
  simp [callLabels]

theorem callLabels_prefix {sid : UInt32} {n : Nat} {ended : Bool} {ls : List Label}
    (h : ls <+: callLabels sid n ended) : ls = [] ∨ ∃ m e, ls = callLabels sid m e := by
  have htake := List.prefix_iff_eq_take.mp h
  revert htake
  generalize ls.length = k
  rintro rfl
  rcases k with _ | k
  · exact .inl rfl
  right
  by_cases hk : k ≤ n
  · refine ⟨k, false, ?_⟩
    have hrange : (List.range n).take k = List.range k := by rw [List.take_range, Nat.min_eq_left hk]
    have hrest : k - n = 0 := by omega
    simp [callLabels, List.take_append, ← List.map_take, hrange, hrest]
  · refine ⟨n, ended, List.take_of_length_le ?_⟩
    have hlast : (if ended then [(⟨sid, .terminator, UInt8.ofNat (n + 1)⟩ : Label)] else []).length ≤ 1 := by
      split <;> simp
    simp only [callLabels, List.length_append, List.length_cons, List.length_map, List.length_range]
    omega

theorem header_of_callLabels {sid : UInt32} {n : Nat} {ended : Bool} {pre post : List Label} {l : Label}
    (h : callLabels sid n ended = pre ++ l :: post) (hl : l.kind = .header) : pre = [] := by
  rcases pre with _ | ⟨a, pre⟩
  · rfl
  · simp only [callLabels, List.cons_append, List.cons.injEq] at h
    obtain ⟨-, htail⟩ := h
    have hmem : l ∈ pre ++ l :: post := by simp
    rw [← htail] at hmem
    rcases List.mem_append.mp hmem with hburst | hterm
    · obtain ⟨k, -, rfl⟩ := List.mem_map.mp hburst
      cases hl
    · split at hterm
      · rw [List.mem_singleton.mp hterm] at hl
        cases hl
      · cases hterm

/-! ## What the machine has built -/

/-- The packets of every stream are those of one call, which is over unless it is the open one. -/
structure Built (call : Option OpenCall) (started : List UInt32) (built : List DmrdPacket) : Prop where
  fresh : ∀ sid, sid ∉ started → labelsOn sid built = []
  current : ∀ c, call = some c → c.stream ∈ started ∧
    ∃ n, c.seq = UInt8.ofNat (n + 1) ∧ labelsOn c.stream built = callLabels c.stream n false
  past : ∀ sid, (∀ c, call = some c → c.stream ≠ sid) →
    labelsOn sid built = [] ∨ ∃ n, labelsOn sid built = callLabels sid n true

theorem Built.cases {call : Option OpenCall} {started : List UInt32} {built : List DmrdPacket}
    (h : Built call started built) (sid : UInt32) :
    labelsOn sid built = [] ∨ ∃ n ended, labelsOn sid built = callLabels sid n ended := by
  by_cases hopen : ∃ c, call = some c ∧ c.stream = sid
  · obtain ⟨c, hc, rfl⟩ := hopen
    obtain ⟨-, n, -, hn⟩ := h.current c hc
    exact .inr ⟨n, false, hn⟩
  · rcases h.past sid fun c hc he => hopen ⟨c, hc, he⟩ with hnone | ⟨n, hn⟩
    · exact .inl hnone
    · exact .inr ⟨n, true, hn⟩

theorem Built.burst {call call' : OpenCall} {started : List UInt32} {built : List DmrdPacket} {ps : List Push}
    (h : Built (some call) started built) (hpush : BurstPush call call' ps) :
    Built (some call') started (built ++ ps.map Push.packet) := by
  cases hpush with
  | skip => simpa using h
  | sent pkt queued hl =>
    obtain ⟨hmem, n, hseq, hlabels⟩ := h.current call rfl
    have hother (sid : UInt32) (hsid : call.stream ≠ sid) :
        labelsOn sid (built ++ [pkt]) = labelsOn sid built := by
      rw [labelsOn_append, labelsOn_single hl, if_neg hsid, List.append_nil]
    refine ⟨fun sid hsid => ?_, ?_, fun sid hsid => ?_⟩
    · have hne : call.stream ≠ sid := fun he => hsid (he ▸ hmem)
      rw [List.map_singleton, Push.packet, hother sid hne]
      exact h.fresh sid hsid
    · rintro c ⟨⟩
      refine ⟨hmem, n + 1, ?_, ?_⟩
      · rw [hseq]
        exact (UInt8.ofNat_add (n + 1) 1).symm
      · rw [List.map_singleton, Push.packet, labelsOn_append, labelsOn_single hl, if_pos rfl, hlabels, hseq]
        exact callLabels_snoc call.stream n
    · have hne : call.stream ≠ sid := hsid ⟨call.stream, call.seq + 1⟩ rfl
      rw [List.map_singleton, Push.packet, hother sid hne]
      refine h.past sid fun c hc => ?_
      cases hc
      exact hne

theorem Built.finish {call : OpenCall} {started : List UInt32} {built : List DmrdPacket} {term : DmrdPacket}
    (h : Built (some call) started built) (hl : labelOf term = some ⟨call.stream, .terminator, call.seq⟩) :
    Built none started (built ++ [term]) := by
  obtain ⟨hmem, n, hseq, hlabels⟩ := h.current call rfl
  have hother (sid : UInt32) (hsid : call.stream ≠ sid) : labelsOn sid (built ++ [term]) = labelsOn sid built := by
    rw [labelsOn_append, labelsOn_single hl, if_neg hsid, List.append_nil]
  refine ⟨fun sid hsid => ?_, by simp, fun sid _ => ?_⟩
  · rw [hother sid fun he => hsid (he ▸ hmem)]
    exact h.fresh sid hsid
  · by_cases hsid : call.stream = sid
    · subst hsid
      refine .inr ⟨n, ?_⟩
      rw [labelsOn_append, labelsOn_single hl, if_pos rfl, hlabels, hseq]
      exact callLabels_finish call.stream n
    · rw [hother sid hsid]
      refine h.past sid fun c hc => ?_
      cases hc
      exact hsid

theorem Built.start {started : List UInt32} {built : List DmrdPacket} {hdr : DmrdPacket} {sid : UInt32}
    (h : Built none started built) (hl : labelOf hdr = some ⟨sid, .header, 0⟩) (hfresh : sid ∉ started) :
    Built (some ⟨sid, 1⟩) (sid :: started) (built ++ [hdr]) := by
  have hother (sid' : UInt32) (hsid : sid ≠ sid') : labelsOn sid' (built ++ [hdr]) = labelsOn sid' built := by
    rw [labelsOn_append, labelsOn_single hl, if_neg hsid, List.append_nil]
  refine ⟨fun sid' hsid => ?_, ?_, fun sid' hsid => ?_⟩
  · rw [List.mem_cons, not_or] at hsid
    rw [hother sid' (Ne.symm hsid.1)]
    exact h.fresh sid' hsid.2
  · rintro c ⟨⟩
    refine ⟨List.mem_cons_self, 0, rfl, ?_⟩
    rw [labelsOn_append, labelsOn_single hl, if_pos rfl, h.fresh sid hfresh]
    rfl
  · rw [hother sid' (hsid _ rfl)]
    exact h.past sid' (by simp)

theorem Built.move {P : Params σ φ} {m : Machine σ φ} {env : Env} {ev : PttEvent} {started : List UInt32}
    {built : List DmrdPacket} (h : Built m.state.openCall started built) (hev : ev ≠ .control .networkReset)
    (hfresh : ∀ sid ∈ opened m.state (handle P m env ev).1.state, sid ∉ started) :
    Built (handle P m env ev).1.state.openCall
      ((opened m.state (handle P m env ev).1.state).toList ++ started)
      (built ++ packets (handle P m env ev).2) := by
  have hmove := handle_callMove P m env ev
  unfold packets
  unfold opened at hfresh ⊢
  revert hmove hfresh
  generalize (handle P m env ev).1.state.openCall = after
  generalize pushes (handle P m env ev).2 = ps
  revert h
  generalize m.state.openCall = before
  intro h hfresh hmove
  cases hmove with
  | stay => cases after <;> simpa using h
  | start hdr hl _ => exact h.start hl (hfresh env.streamId rfl)
  | burst hpush => exact h.burst hpush
  | finish hflush term hl =>
    have hend := (h.burst hflush).finish hl
    simpa [Push.packet] using hend
  | reset call hreset => exact absurd hreset hev

/-! ## The queues -/

namespace Bridge

/-- Where the machine has put a packet it has built: on the wire, on a queue or not there yet. -/
structure OrderInv (s : Bridge σ φ) : Prop where
  built : Built s.machine.state.openCall s.started s.built
  conserved : ∀ sid, (s.lanes.order ++ packets s.pending).filter (onStream sid) = s.built.filter (onStream sid)
  boundary : ∀ pkt, Push.control pkt ∈ pushes s.pending → isHeader pkt = true ∨ isTerminator pkt = true
  control : s.control = []
  session : s.session ≠ .down

/-- No session is lost and no burst finds its queue full. -/
def Regular (s : Bridge σ φ) : BridgeAction → Prop
  | .lose => False
  | .push => ∀ o ∈ s.pending.head?, overflows o = false
  | _ => True

/-- A terminator finds no burst of its stream in the voice queue. -/
def TerminatorClear (s : Bridge σ φ) : BridgeAction → Prop
  | .push => ∀ o ∈ s.pending.head?, ∀ term ∈ controlOf o, isTerminator term = true →
      ∀ pkt ∈ s.lanes.low, streamOf pkt ≠ streamOf term
  | _ => True

instance (s : Bridge σ φ) : ∀ a, Decidable (Regular s a)
  | .lose => .isFalse id
  | .push => Option.decidableForallMem s.pending.head?
  | .handle .. | .handleControl _ | .shutdown _ | .send | .authenticate | .close | .cancel | .fmTake _ | .fmWake
  | .fmStop => .isTrue trivial

instance (s : Bridge σ φ) : ∀ a, Decidable (TerminatorClear s a)
  | .push =>
    have _waits (term : DmrdPacket) :
        Decidable (isTerminator term = true → ∀ pkt ∈ s.lanes.low, streamOf pkt ≠ streamOf term) := inferInstance
    have _clear (o : Output) : Decidable (∀ term ∈ controlOf o, isTerminator term = true →
        ∀ pkt ∈ s.lanes.low, streamOf pkt ≠ streamOf term) := Option.decidableForallMem (controlOf o)
    Option.decidableForallMem s.pending.head?
  | .handle .. | .handleControl _ | .shutdown _ | .send | .lose | .authenticate | .close | .cancel | .fmTake _
  | .fmWake | .fmStop => .isTrue trivial

/-- The packets of a stream on the wire: a call, cut off anywhere, in the order in which it was built. -/
structure StreamInOrder (s : Bridge σ φ) (sid : UInt32) : Prop where
  asBuilt : s.lanes.sent.filter (onStream sid) <+: s.built.filter (onStream sid)
  shape : labelsOn sid s.lanes.sent = [] ∨ ∃ n ended, labelsOn sid s.lanes.sent = callLabels sid n ended

theorem OrderInv.inOrder {s : Bridge σ φ} (h : OrderInv s) (sid : UInt32) : StreamInOrder s sid := by
  have hbuilt : s.lanes.sent.filter (onStream sid) <+: s.built.filter (onStream sid) := by
    rw [← h.conserved sid, List.filter_append]
    exact (s.lanes.sent_prefix_order.filter _).trans (List.prefix_append _ _)
  refine ⟨hbuilt, ?_⟩
  have hlabels := labelsOn_prefix hbuilt
  rcases h.built.cases sid with hnone | ⟨n, ended, hn⟩
  · rw [hnone, List.prefix_nil] at hlabels
    exact .inl hlabels
  · rw [hn] at hlabels
    exact callLabels_prefix hlabels

/-! ## One step -/

theorem boundary_of_move {fresh : UInt32} {ev : PttEvent} {call call' : Option OpenCall} {ps : List Push}
    (h : CallMove fresh ev call call' ps) :
    ∀ pkt, Push.control pkt ∈ ps → isHeader pkt = true ∨ isTerminator pkt = true := by
  have hflush {c c' : OpenCall} {qs : List Push} (hpush : BurstPush c c' qs) :
      ∀ pkt, Push.control pkt ∉ qs := by
    cases hpush <;> simp
  intro pkt hpkt
  cases h with
  | stay => cases hpkt
  | start hdr hl _ =>
    obtain rfl : pkt = hdr := by simpa using hpkt
    exact .inl (by simp [isHeader, hl])
  | burst hpush => exact absurd hpkt (hflush hpush pkt)
  | finish hpush term hl =>
    rcases List.mem_append.mp hpkt with hburst | hterm
    · exact absurd hburst (hflush hpush pkt)
    · obtain rfl : pkt = term := by simpa using hterm
      exact .inr (by simp [isTerminator, hl])
  | reset => cases hpkt

theorem OrderInv.react {P : Params σ φ} {s : Bridge σ φ} (h : OrderInv s) (env : Env) (ev : PttEvent)
    (hpending : s.pending = []) (hev : ev ≠ .control .networkReset)
    (hfresh : ∀ sid ∈ opened s.machine.state (react P s env ev).machine.state, sid ∉ s.started) :
    OrderInv (Bridge.react P s env ev) where
  built := Built.move (m := ⟨s.machine.state, s.machine.codec.observe s.cancelled⟩) h.built hev hfresh
  conserved sid := by
    have hall := h.conserved sid
    rw [hpending] at hall
    have hnone : packets [] = [] := rfl
    rw [hnone, List.append_nil] at hall
    simp only [Bridge.react, List.filter_append, hall]
  boundary := boundary_of_move (handle_callMove P _ env ev)
  control := h.control
  session := h.session

/-- A control packet finds no packet of its stream in the voice queue: a header because it is the first. -/
theorem OrderInv.clear {s : Bridge σ φ} {pkt : DmrdPacket} {pending : List Output} (h : OrderInv s)
    (hpending : s.pending = .control pkt :: pending) (hclear : TerminatorClear s .push) (sid : UInt32)
    (hpkt : onStream sid pkt = true) : ∀ q ∈ s.lanes.low, onStream sid q = false := by
  have hkind := h.boundary pkt (by simp [pushes, hpending, pushOf])
  by_cases hterm : isTerminator pkt = true
  · intro q hq
    have hne := hclear (.control pkt) (by rw [hpending]; rfl) pkt rfl hterm q hq
    simp only [onStream, decide_eq_true_eq, decide_eq_false_iff_not] at hpkt ⊢
    rwa [← hpkt]
  have hhdr : isHeader pkt = true := hkind.resolve_right hterm
  obtain ⟨l, hl, -⟩ := (onStream_iff sid pkt).mp hpkt
  have hheader : l.kind = .header := by simpa [isHeader, hl] using hhdr
  -- What the stream has built is one call, and the header comes after what is on the queues.
  have hlabels : labelsOn sid s.built = labelsOn sid s.lanes.order ++ l :: labelsOn sid (packets pending) := by
    have hall := h.conserved sid
    rw [hpending, packets_cons_control] at hall
    unfold labelsOn at *
    rw [← hall]
    simp [List.filter_append, hpkt, hl]
  have hempty : labelsOn sid s.lanes.order = [] := by
    rcases h.built.cases sid with hnone | ⟨n, ended, hn⟩
    · rw [hnone] at hlabels
      simp at hlabels
    · exact header_of_callLabels (hn.symm.trans hlabels) hheader
  intro q hq
  by_contra hon
  rw [Bool.not_eq_false] at hon
  obtain ⟨l', hl', -⟩ := (onStream_iff sid q).mp hon
  have hmem : l' ∈ labelsOn sid s.lanes.order :=
    List.mem_filterMap.mpr ⟨q, List.mem_filter.mpr ⟨List.mem_append_right _ hq, hon⟩, hl'⟩
  rw [hempty] at hmem
  cases hmem

theorem orderInv_step {P : Params σ φ} {s t : Bridge σ φ} {a : BridgeAction} (h : OrderInv s)
    (hreg : Regular s a) (hnew : NewStream P s a) (hclear : TerminatorClear s a) (hstep : step P s a = some t) :
    OrderInv t := by
  cases step_move hstep with
  | handle hev hpending _ _ =>
    refine h.react _ _ hpending (fun he => ?_) hnew
    rw [he] at hev
    cases hev
  | handleControl _ _ hcontrol =>
    rw [h.control] at hcontrol
    cases hcontrol
  | @shutdown env hpending _ =>
    have hnone : opened s.machine.state (Bridge.react P s env .shutdown).machine.state = none :=
      opened_of_not_audio P ⟨s.machine.state, s.machine.codec.observe s.cancelled⟩ env .shutdown (by simp)
    have hreact := h.react (P := P) env .shutdown hpending (by simp) (by simp [hnone])
    exact ⟨hreact.built, hreact.conserved, hreact.boundary, hreact.control, hreact.session⟩
  | control hpending =>
    refine ⟨h.built, fun sid => ?_, fun q hq => h.boundary q ?_, h.control, h.session⟩
    · have hall := h.conserved sid
      rw [hpending, packets_cons_control] at hall
      rw [List.filter_append, Lanes.filter_order_pushHigh _ _ _ (h.clear hpending hclear sid), ← hall,
        ← List.filter_append, List.append_assoc, List.singleton_append]
    · rw [hpending]
      exact List.mem_cons_of_mem _ hq
  | voice hpending =>
    refine ⟨h.built, fun sid => ?_, fun q hq => h.boundary q ?_, h.control, h.session⟩
    · have hall := h.conserved sid
      rw [hpending, packets_cons_voice] at hall
      rw [← hall]
      simp
    · rw [hpending]
      exact List.mem_cons_of_mem _ hq
  | full hpending => exact absurd (hreg _ (congrArg List.head? hpending)) (by simp [overflows])
  | other audioOut hpending ho =>
    refine ⟨h.built, fun sid => ?_, fun q hq => h.boundary q ?_, h.control, h.session⟩
    · rw [← h.conserved sid, hpending, packets_cons_none ho]
    · rw [hpending, pushes, List.filterMap_cons, ho]
      exact hq
  | send _ _ hpop =>
    refine ⟨h.built, fun sid => ?_, h.boundary, h.control, h.session⟩
    rw [← h.conserved sid, Lanes.order_pop hpop]
  | lose => exact absurd hreg id
  | authenticate hdown _ => exact absurd hdown h.session
  | close => exact ⟨h.built, h.conserved, h.boundary, h.control, by simp⟩
  | cancel => exact ⟨h.built, h.conserved, h.boundary, h.control, h.session⟩
  | fm => exact ⟨h.built, h.conserved, h.boundary, h.control, h.session⟩

/-- Every stream leaves in order in every run in which no terminator finds a burst of its call waiting. -/
theorem stream_in_order (P : Params σ φ) (vocoder : σ) (filter : Option φ) (as : List BridgeAction)
    (t : Bridge σ φ) (hregular : Along (step P) Regular (connected vocoder filter) as)
    (hnew : Along (step P) (NewStream P) (connected vocoder filter) as)
    (hclear : Along (step P) TerminatorClear (connected vocoder filter) as)
    (hrun : runs (step P) (connected vocoder filter) as = some t) : ∀ sid, StreamInOrder t sid := by
  have hinit : OrderInv (connected vocoder filter : Bridge σ φ) :=
    ⟨⟨fun _ _ => rfl, by simp [connected, start, newMachine, PttState.openCall], fun _ _ => .inl rfl⟩, fun _ => rfl,
      by simp [connected, start, pushes], rfl, by simp [connected]⟩
  have hinv := runs_invariant (fun s a u h hok hstep => orderInv_step h hok.1.1 hok.1.2 hok.2 hstep) hinit
    (along_and (along_and hregular hnew) hclear) hrun
  exact hinv.inOrder

/-- The queues run empty before the key is released. -/
theorem stream_in_order_sample :
    ∃ t, runs (step sampleParams) (connected () none) (oneBurst 3 ++ [.send, .send] ++ releaseKey ++ [.send]) = some t ∧
      labelsOn 3 t.lanes.sent = [⟨3, .header, 0⟩, ⟨3, .burst, 1⟩, ⟨3, .terminator, 2⟩] ∧
        ∀ sid, StreamInOrder t sid := by
  have hrun : (runs (step sampleParams) (connected () none)
      (oneBurst 3 ++ [.send, .send] ++ releaseKey ++ [.send])).map (fun t => labelsOn 3 t.lanes.sent) =
        some [⟨3, .header, 0⟩, ⟨3, .burst, 1⟩, ⟨3, .terminator, 2⟩] := by decide +kernel
  obtain ⟨t, ht, hlabels⟩ := Option.map_eq_some_iff.mp hrun
  exact ⟨t, ht, hlabels, stream_in_order sampleParams () none _ t (by decide +kernel) (by decide +kernel)
    (by decide +kernel) ht⟩

/-- The burst still waits when the key is released: the terminator goes out before it. -/
theorem terminator_overtakes :
    ∃ t, runs (step sampleParams) (connected () none) (oneBurst 3 ++ releaseKey ++ [.send, .send]) = some t ∧
      labelsOn 3 t.lanes.sent = [⟨3, .header, 0⟩, ⟨3, .terminator, 2⟩] ∧ ¬ StreamInOrder t 3 := by
  have hrun : (runs (step sampleParams) (connected () none) (oneBurst 3 ++ releaseKey ++ [.send, .send])).map
      (fun t => labelsOn 3 t.lanes.sent) = some [⟨3, .header, 0⟩, ⟨3, .terminator, 2⟩] := by decide +kernel
  obtain ⟨t, ht, hlabels⟩ := Option.map_eq_some_iff.mp hrun
  refine ⟨t, ht, hlabels, fun h => ?_⟩
  have hshape := h.shape
  rw [hlabels] at hshape
  rcases hshape with hnil | ⟨n, ended, hn⟩
  · cases hnil
  · rcases n with _ | n
    · cases ended <;> simp [callLabels] at hn
    · simp [callLabels, List.range_succ_eq_map, burstLabel] at hn

end Bridge

end DmrBridge
