import DmrBridge.Bridge

/-!
# Shutdown

`voice_task` ends its call when the token is cancelled, but the two tasks that would carry the
terminator and the unkey away look at the token before they look at their queues. What is on the
sockets when the token is cancelled stays as it is.
-/

open Run

namespace DmrBridge

variable {σ φ : Type}

namespace Bridge

def Terminated (ps : List DmrdPacket) (sid : Option UInt32) : Prop :=
  ∃ term ∈ ps, isTerminator term = true ∧ streamOf term = sid

def StreamsEnded (ps : List DmrdPacket) : Prop := ∀ hdr ∈ ps, isHeader hdr = true → Terminated ps (streamOf hdr)

def FmUnkeyed (frames : List AudioFrame) : Prop :=
  (∃ frame ∈ frames, frame.keyup = true) → ∃ frame ∈ frames.getLast?, frame.keyup = false

/-- Nothing is left open on the sockets. -/
structure EndsCleanly (s : Bridge σ φ) : Prop where
  dmr : StreamsEnded s.lanes.sent
  fm : FmUnkeyed s.fmSent

structure Returned (s : Bridge σ φ) : Prop where
  voice : s.stopping = true ∧ s.pending = []
  homebrew : s.session = .closed
  fm : s.fm = .returned

instance (ps : List DmrdPacket) (sid : Option UInt32) : Decidable (Terminated ps sid) :=
  inferInstanceAs (Decidable (∃ term ∈ ps, _))

instance (ps : List DmrdPacket) : Decidable (StreamsEnded ps) := inferInstanceAs (Decidable (∀ hdr ∈ ps, _))

instance (frames : List AudioFrame) : Decidable (FmUnkeyed frames) :=
  inferInstanceAs (Decidable ((∃ frame ∈ frames, _) → ∃ frame ∈ frames.getLast?, _))

instance (s : Bridge σ φ) : Decidable (EndsCleanly s) :=
  decidable_of_iff (StreamsEnded s.lanes.sent ∧ FmUnkeyed s.fmSent) ⟨fun h => ⟨h.1, h.2⟩, fun h => ⟨h.dmr, h.fm⟩⟩

instance (s : Bridge σ φ) : Decidable (Returned s) :=
  decidable_of_iff ((s.stopping = true ∧ s.pending = []) ∧ s.session = .closed ∧ s.fm = .returned)
    ⟨fun h => ⟨h.1, h.2.1, h.2.2⟩, fun h => ⟨h.voice, h.homebrew, h.fm⟩⟩

/-! ## After the token -/

structure Frozen (s t : Bridge σ φ) : Prop where
  cancelled : t.cancelled = true
  dmr : t.lanes.sent = s.lanes.sent
  fm : t.fmSent = s.fmSent

theorem frozen_step {P : Params σ φ} {s t u : Bridge σ φ} {a : BridgeAction} (h : Frozen s t)
    (hstep : step P t a = some u) : Frozen s u := by
  cases step_move hstep with
  | handle _ _ hlive | handleControl _ hlive | send _ hlive | authenticate _ hlive =>
    rw [h.cancelled] at hlive
    cases hlive
  | shutdown =>
    refine ⟨?_, h.dmr, h.fm⟩
    simp [react, h.cancelled]
  | fm audioOut fm fmSent _ _ hsent => exact ⟨h.cancelled, h.dmr, (hsent h.cancelled).trans h.fm⟩
  | cancel => exact ⟨rfl, h.dmr, h.fm⟩
  | _ => exact ⟨h.cancelled, h.dmr, h.fm⟩

theorem frozen_run {P : Params σ φ} {s t : Bridge σ φ} {as : List BridgeAction} (hcancelled : s.cancelled = true)
    (hrun : runs (step P) s as = some t) : Frozen s t := by
  have hfree : Along (step P) (fun _ _ => True) s as := along_of_forall (fun _ _ => trivial) s as
  exact runs_invariant (fun t a u h _ hstep => frozen_step h hstep) ⟨hcancelled, rfl, rfl⟩ hfree hrun

/-- `tx_task` returns on the token alone. -/
theorem cancelled_of_returned {P : Params σ φ} {s t : Bridge σ φ} {a : BridgeAction} (hstep : step P s a = some t)
    (h : s.fm = .returned → s.cancelled = true) (hreturned : t.fm = .returned) : s.cancelled = true := by
  cases step_move hstep with
  | fm audioOut fm fmSent _ _ _ _ hend => exact hend hreturned
  | _ => exact h hreturned

theorem cancelled_of_returned_run {P : Params σ φ} {vocoder : σ} {filter : Option φ} {as : List BridgeAction}
    {s : Bridge σ φ} (hrun : runs (step P) (start vocoder filter) as = some s) :
    s.fm = .returned → s.cancelled = true := by
  have hfree : Along (step P) (fun _ _ => True) (start vocoder filter) as := along_of_forall (fun _ _ => trivial) _ as
  have hkeep (s : Bridge σ φ) (a : BridgeAction) (t : Bridge σ φ) (h : s.fm = .returned → s.cancelled = true)
      (_ : True) (hstep : step P s a = some t) (hreturned : t.fm = .returned) : t.cancelled = true :=
    (frozen_step ⟨cancelled_of_returned hstep h hreturned, rfl, rfl⟩ hstep).cancelled
  exact runs_invariant hkeep (fun hstart => by cases hstart) hfree hrun

theorem endsCleanly_of_frozen {s t : Bridge σ φ} (h : Frozen s t) : EndsCleanly t ↔ EndsCleanly s := by
  constructor
  · intro hclean
    have hdmr := hclean.dmr
    have hfm := hclean.fm
    rw [h.dmr] at hdmr
    rw [h.fm] at hfm
    exact ⟨hdmr, hfm⟩
  · intro hclean
    refine ⟨?_, ?_⟩
    · rw [h.dmr]
      exact hclean.dmr
    · rw [h.fm]
      exact hclean.fm

/-! ## What is still to come -/

def enqueued : Push → Option DmrdPacket
  | .voice pkt queued => if queued then some pkt else none
  | .control pkt => some pkt

/-- Behind the socket: on the queues or about to be. -/
def waiting (s : Bridge σ φ) : List DmrdPacket :=
  s.lanes.high ++ s.lanes.low ++ (pushes s.pending).filterMap enqueued

def fmWaiting (s : Bridge σ φ) : List AudioFrame := s.fm.held ++ s.audioOut ++ s.pending.filterMap audioOf

def openStream (state : PttState) : Option UInt32 := state.openCall.map (·.stream)

/-- The calls that a NetworkReset has ended: the outgoing ones, which have no terminator, and whether the machine
has put out no frame for FM since an incoming one. -/
structure CutOff where
  streams : List UInt32
  incoming : Bool

namespace CutOff

def start : CutOff := ⟨[], false⟩

/-- A frame for FM is an unkey or belongs to a call that will end with one. -/
def heard (c : CutOff) (outs : List Output) : CutOff :=
  { c with incoming := c.incoming && (outs.filterMap audioOf).isEmpty }

def note (P : Params σ φ) (s : Bridge σ φ) (c : CutOff) : BridgeAction → CutOff
  | .handleControl _ =>
    { streams := (openStream s.machine.state).toList ++ c.streams
      incoming := s.machine.state.rxStream.isSome || c.incoming }
  | .handle env ev => c.heard (react P s env ev).pending
  | .shutdown env => c.heard (react P s env .shutdown).pending
  | _ => c

end CutOff

/-- The calls that resets have ended in a run. -/
def cutOff (P : Params σ φ) (s : Bridge σ φ) (as : List BridgeAction) : CutOff :=
  history (step P) (CutOff.note P) s .start as

/-- What a socket has begun and not ended is not going on, its end does not wait in a queue, and no reset has
taken it away. -/
structure Settled (s : Bridge σ φ) (cut : CutOff) : Prop where
  dmr : ∀ hdr ∈ s.lanes.sent, isHeader hdr = true → ¬ Terminated s.lanes.sent (streamOf hdr) →
    openStream s.machine.state ≠ streamOf hdr ∧ ¬ Terminated (waiting s) (streamOf hdr) ∧
      ∀ sid ∈ cut.streams, streamOf hdr ≠ some sid
  fm : (∃ frame ∈ s.fmSent.getLast?, frame.keyup = true) →
    s.machine.state.rxStream = none ∧ (∀ frame ∈ fmWaiting s, frame.keyup = true) ∧ cut.incoming = false

/-- A header in `ps` has its terminator there, opens the call that is still open or opened one that was cut off. -/
def Covered (ps : List DmrdPacket) (sid : Option UInt32) (cut : List UInt32) : Prop :=
  ∀ hdr ∈ ps, isHeader hdr = true →
    Terminated ps (streamOf hdr) ∨ sid = streamOf hdr ∨ ∃ sid ∈ cut, streamOf hdr = some sid

theorem Terminated.mono {ps qs : List DmrdPacket} {sid : Option UInt32} (h : Terminated ps sid) (hsub : ps ⊆ qs) :
    Terminated qs sid := by
  obtain ⟨term, hmem, hterm⟩ := h
  exact ⟨term, hsub hmem, hterm⟩

section
variable {ps qs : List DmrdPacket} {sid : Option UInt32} {cut : List UInt32}

theorem Covered.congr (h : Covered ps sid cut) (hmem : ∀ pkt, pkt ∈ qs ↔ pkt ∈ ps) : Covered qs sid cut := by
  intro hdr hhdr hheader
  rcases h hdr ((hmem hdr).mp hhdr) hheader with hterm | hopen
  · exact .inl (hterm.mono fun pkt hpkt => (hmem pkt).mpr hpkt)
  · exact .inr hopen

theorem Covered.append (h : Covered ps sid cut) (hqs : ∀ pkt ∈ qs, isHeader pkt = false) :
    Covered (ps ++ qs) sid cut := by
  intro hdr hhdr hheader
  rcases List.mem_append.mp hhdr with hold | hnew
  · rcases h hdr hold hheader with hterm | hopen
    · exact .inl (hterm.mono (List.subset_append_left ps qs))
    · exact .inr hopen
  · rw [hqs hdr hnew] at hheader
    cases hheader

theorem Covered.weaken {cut' : List UInt32} (h : Covered ps sid cut) (hcut : cut ⊆ cut') : Covered ps sid cut' := by
  intro hdr hhdr hheader
  rcases h hdr hhdr hheader with hterm | hopen | ⟨other, hmem, hstream⟩
  · exact .inl hterm
  · exact .inr (.inl hopen)
  · exact .inr (.inr ⟨other, hcut hmem, hstream⟩)

end

theorem enqueued_burst {call call' : OpenCall} {ps : List Push} (h : BurstPush call call' ps) :
    call'.stream = call.stream ∧ ∀ pkt ∈ ps.filterMap enqueued, isHeader pkt = false := by
  cases h with
  | skip => exact ⟨rfl, by simp⟩
  | sent pkt queued hl =>
    refine ⟨rfl, fun other hother => ?_⟩
    cases queued with
    | false => cases hother
    | true =>
      obtain rfl : other = pkt := by simpa [enqueued] using hother
      simp [isHeader, hl]

theorem Covered.move {fresh : UInt32} {ev : PttEvent} {before after : Option OpenCall} {ps : List DmrdPacket}
    {out : List Push} {cut cut' : List UInt32} (h : Covered ps (before.map (·.stream)) cut)
    (hmove : CallMove fresh ev before after out) (hcut : cut ⊆ cut')
    (hreset : ev = .control .networkReset → ∀ call ∈ before, call.stream ∈ cut') :
    Covered (ps ++ out.filterMap enqueued) (after.map (·.stream)) cut' := by
  have h' := h.weaken hcut
  cases hmove with
  | stay => exact h'.append (by simp)
  | start hdr hl _ =>
    intro other hother hheader
    rcases List.mem_append.mp hother with hold | hnew
    · rcases h' other hold hheader with hterm | hopen | hgone
      · exact .inl (hterm.mono (List.subset_append_left ps _))
      · -- A header has a stream, and no call was open.
        obtain ⟨l, hlabel⟩ : ∃ l, labelOf other = some l := by
          unfold isHeader at hheader
          obtain ⟨l, hlabel, -⟩ := (Option.any_eq_true ..).mp hheader
          exact ⟨l, hlabel⟩
        simp [streamOf, hlabel] at hopen
      · exact .inr (.inr hgone)
    · obtain rfl : other = hdr := by simpa [enqueued] using hnew
      right
      left
      simp [streamOf, hl]
  | burst hpush =>
    obtain ⟨hsame, hquiet⟩ := enqueued_burst hpush
    have hcov := h'.append hquiet
    simp only [Option.map_some] at hcov ⊢
    rw [hsame]
    exact hcov
  | @finish call call' flushed hflush term hl =>
    obtain ⟨hsame, hquiet⟩ := enqueued_burst hflush
    have hcov := h'.append hquiet
    rw [List.filterMap_append, ← List.append_assoc]
    have hterm : Terminated (ps ++ flushed.filterMap enqueued ++ [term]) (some call.stream) := by
      refine ⟨term, List.mem_append_right _ (List.mem_singleton.mpr rfl), ?_, ?_⟩
      · simp [isTerminator, hl]
      · simp [streamOf, hl, hsame]
    intro hdr hhdr hheader
    rcases List.mem_append.mp hhdr with hold | hnew
    · rcases hcov hdr hold hheader with hended | hopen | hgone
      · exact .inl (hended.mono (List.subset_append_left _ _))
      · left
        rw [← hopen]
        exact hterm
      · exact .inr (.inr hgone)
    · obtain rfl : hdr = term := by simpa [enqueued] using hnew
      simp [isHeader, hl] at hheader
  | reset call hev =>
    intro hdr hhdr hheader
    rw [List.filterMap_nil, List.append_nil] at hhdr ⊢
    rcases h' hdr hhdr hheader with hterm | hopen | hgone
    · exact .inl hterm
    · exact .inr (.inr ⟨call.stream, hreset hev call rfl, hopen.symm⟩)
    · exact .inr (.inr hgone)

/-- Only a call that starts sends a header, its own. -/
theorem header_of_move {fresh : UInt32} {ev : PttEvent} {before after : Option OpenCall} {out : List Push}
    (hmove : CallMove fresh ev before after out) {hdr : DmrdPacket} (hhdr : hdr ∈ out.filterMap enqueued)
    (hheader : isHeader hdr = true) : after.map (·.stream) = streamOf hdr := by
  cases hmove with
  | stay | reset => cases hhdr
  | start other hl _ =>
    obtain rfl : hdr = other := by simpa [enqueued] using hhdr
    simp [streamOf, hl]
  | burst hpush =>
    rw [(enqueued_burst hpush).2 hdr hhdr] at hheader
    cases hheader
  | finish hflush term hl =>
    rw [List.filterMap_append] at hhdr
    rcases List.mem_append.mp hhdr with hhdr | hhdr
    · rw [(enqueued_burst hflush).2 hdr hhdr] at hheader
      cases hheader
    · obtain rfl : hdr = term := by simpa [enqueued] using hhdr
      simp [isHeader, hl] at hheader

/-- A handler that leaves no incoming call open sends an unkey at its end, or there was no call. -/
theorem audio_of_rxMove {P : Params σ φ} {env : Env} {ev : PttEvent} {s s' : PttState} {outs : List Output}
    (h : RxMove P env ev s s' outs) (hreset : ev = .control .networkReset → s.rxStream = none)
    (hs' : s'.rxStream = none) :
    s.rxStream = none ∧ outs.filterMap audioOf = [] ∨
      ∃ frame, outs.filterMap audioOf = [frame] ∧ frame.keyup = false := by
  cases h with
  | send hs _ houts =>
    refine .inl ⟨?_, audio_of_dir houts⟩
    cases s with
    | idle | tx => rfl
    | rx | rxHang => cases hs
  | quiet => exact .inl ⟨hs', rfl⟩
  | header | voice => cases hs'
  | terminator | streamTimeout | shutdown | hangShutdown => exact .inr ⟨_, rfl, rfl⟩
  | hangExpired => exact .inl ⟨rfl, rfl⟩
  | clobber => exact .inl ⟨hreset rfl, rfl⟩

theorem FmUnkeyed.snoc (frames : List AudioFrame) {frame : AudioFrame} (h : frame.keyup = false) :
    FmUnkeyed (frames ++ [frame]) := by
  intro _
  exact ⟨frame, by simp, h⟩

/-- Whatever a socket has begun is ended behind it, is still going on or was cut off. -/
structure Owed (s : Bridge σ φ) (cut : CutOff) : Prop where
  dmr : Covered (s.lanes.sent ++ waiting s) (openStream s.machine.state) cut.streams
  fresh : ∀ hdr ∈ (pushes s.pending).filterMap enqueued, isHeader hdr = true →
    openStream s.machine.state = streamOf hdr
  fm : s.fm ≠ .returned → s.machine.state.rxStream = none → cut.incoming = false →
    FmUnkeyed (s.fmSent ++ fmWaiting s)

theorem fmUnkeyed_or (frames : List AudioFrame) :
    FmUnkeyed frames ∨ ∃ last ∈ frames.getLast?, last.keyup = true := by
  cases hlast : frames.getLast? with
  | none =>
    left
    rw [List.getLast?_eq_none_iff] at hlast
    rintro ⟨frame, hframe, -⟩
    rw [hlast] at hframe
    cases hframe
  | some last =>
    cases hkey : last.keyup with
    | true => exact .inr ⟨last, rfl, hkey⟩
    | false => exact .inl fun _ => ⟨last, hlast, hkey⟩

theorem not_fmUnkeyed_append {sent waits : List AudioFrame} (hsent : ∃ last ∈ sent.getLast?, last.keyup = true)
    (hwaits : ∀ frame ∈ waits, frame.keyup = true) : ¬ FmUnkeyed (sent ++ waits) := by
  intro h
  obtain ⟨last, hlast, hkeyed⟩ := hsent
  obtain ⟨final, hfinal, hunkeyed⟩ := h ⟨last, List.mem_append_left _ (List.mem_of_getLast? hlast), hkeyed⟩
  rw [Option.mem_def, List.getLast?_append] at hfinal
  cases hw : waits.getLast? with
  | none =>
    rw [hw, Option.none_or, Option.mem_def.mp hlast] at hfinal
    obtain rfl := Option.some.inj hfinal
    rw [hkeyed] at hunkeyed
    cases hunkeyed
  | some other =>
    rw [hw, Option.some_or] at hfinal
    obtain rfl := Option.some.inj hfinal
    rw [hwaits other (List.mem_of_getLast? hw)] at hunkeyed
    cases hunkeyed

theorem settled_iff {s : Bridge σ φ} {cut : CutOff} (h : Owed s cut) (hlive : s.fm ≠ .returned) :
    EndsCleanly s ↔ Settled s cut := by
  constructor
  · intro hclean
    refine ⟨fun hdr hhdr hheader hopen => absurd (hclean.dmr hdr hhdr hheader) hopen, fun hlast => ?_⟩
    have hunclean := not_fmUnkeyed_append hlast (List.forall_mem_nil _)
    rw [List.append_nil] at hunclean
    exact absurd hclean.fm hunclean
  · intro hsettled
    refine ⟨fun hdr hhdr hheader => ?_, ?_⟩
    · by_contra hopen
      obtain ⟨hidle, hnone, huncut⟩ := hsettled.dmr hdr hhdr hheader hopen
      rcases h.dmr hdr (List.mem_append_left _ hhdr) hheader with ⟨term, hterm, hlabel⟩ | hcall | ⟨sid, hsid, hcut⟩
      · rcases List.mem_append.mp hterm with hsent | hwaits
        · exact hopen ⟨term, hsent, hlabel⟩
        · exact hnone ⟨term, hwaits, hlabel⟩
      · exact hidle hcall
      · exact huncut sid hsid hcut
    · rcases fmUnkeyed_or s.fmSent with hclean | hlast
      · exact hclean
      · obtain ⟨hidle, hwaits, huncut⟩ := hsettled.fm hlast
        exact absurd (h.fm hlive hidle huncut) (not_fmUnkeyed_append hlast hwaits)

/-! ## Whole runs -/

theorem Owed.react_dmr {s : Bridge σ φ} {cut : CutOff} (h : Owed s cut) (P : Params σ φ) (env : Env) (ev : PttEvent)
    (hpending : s.pending = []) {streams : List UInt32} (hcut : cut.streams ⊆ streams)
    (hreset : ev = .control .networkReset → ∀ call ∈ s.machine.state.openCall, call.stream ∈ streams) :
    Covered (s.lanes.sent ++ waiting (react P s env ev)) (openStream (react P s env ev).machine.state) streams := by
  have hmove := handle_callMove P ⟨s.machine.state, s.machine.codec.observe s.cancelled⟩ env ev
  have hcov := h.dmr.move hmove hcut hreset
  have hwaiting : s.lanes.sent ++ waiting (react P s env ev) =
      s.lanes.sent ++ waiting s ++ (pushes (react P s env ev).pending).filterMap enqueued := by
    unfold waiting
    rw [hpending]
    simp [react, pushes]
  rw [hwaiting]
  exact hcov

theorem react_fresh (P : Params σ φ) (s : Bridge σ φ) (env : Env) (ev : PttEvent) :
    ∀ hdr ∈ (pushes (react P s env ev).pending).filterMap enqueued, isHeader hdr = true →
      openStream (react P s env ev).machine.state = streamOf hdr := by
  have hmove := handle_callMove P ⟨s.machine.state, s.machine.codec.observe s.cancelled⟩ env ev
  intro hdr hhdr hheader
  exact header_of_move hmove hhdr hheader

theorem Owed.react_fm {s : Bridge σ φ} {cut : CutOff} (h : Owed s cut) (P : Params σ φ) (env : Env) (ev : PttEvent)
    (hpending : s.pending = []) (hreset : ev = .control .networkReset → s.machine.state.rxStream = none)
    (hheard : (react P s env ev).pending.filterMap audioOf = [] → cut.incoming = false)
    (hlive : s.fm ≠ .returned) (hidle : (react P s env ev).machine.state.rxStream = none) :
    FmUnkeyed (s.fmSent ++ fmWaiting (react P s env ev)) := by
  have hmove := handle_rxMove P ⟨s.machine.state, s.machine.codec.observe s.cancelled⟩ env ev
  have hflow : s.fmSent ++ fmWaiting (react P s env ev) =
      s.fmSent ++ fmWaiting s ++ (react P s env ev).pending.filterMap audioOf := by
    unfold fmWaiting
    rw [hpending]
    simp [react]
  rw [hflow]
  rcases audio_of_rxMove hmove hreset hidle with ⟨hbefore, hnone⟩ | ⟨frame, hframe, hunkeyed⟩
  · have huncut := hheard hnone
    change FmUnkeyed (_ ++ (DmrBridge.handle P _ env ev).2.filterMap audioOf)
    rw [hnone, List.append_nil]
    exact h.fm hlive hbefore huncut
  · change FmUnkeyed (_ ++ (DmrBridge.handle P _ env ev).2.filterMap audioOf)
    rw [hframe]
    exact FmUnkeyed.snoc _ hunkeyed

/-- An event that is no reset: FM hears a frame, or it is where it was. -/
theorem Owed.react_heard {s : Bridge σ φ} {cut : CutOff} (h : Owed s cut) (P : Params σ φ) (env : Env) (ev : PttEvent)
    (hpending : s.pending = []) (hev : ev ≠ .control .networkReset) :
    Owed (react P s env ev) (cut.heard (react P s env ev).pending) := by
  refine ⟨h.react_dmr P env ev hpending (List.Subset.refl _) fun he => absurd he hev, react_fresh P s env ev, ?_⟩
  intro hlive hidle huncut
  apply h.react_fm P env ev hpending (fun he => absurd he hev) _ hlive hidle
  intro hsilent
  simpa [CutOff.heard, hsilent] using huncut

theorem Owed.move {s t : Bridge σ φ} {cut : CutOff} (h : Owed s cut) (hstate : t.machine.state = s.machine.state)
    (hpending : t.pending ⊆ s.pending)
    (hdmr : ∀ pkt, pkt ∈ t.lanes.sent ++ waiting t ↔ pkt ∈ s.lanes.sent ++ waiting s)
    (hfm : t.fm ≠ .returned → s.fm ≠ .returned ∧ t.fmSent ++ fmWaiting t = s.fmSent ++ fmWaiting s) : Owed t cut := by
  refine ⟨?_, fun hdr hhdr => ?_, fun hlive hidle => ?_⟩
  · rw [hstate]
    exact h.dmr.congr hdmr
  · have hpushes : pushes t.pending ⊆ pushes s.pending := List.filterMap_subset _ hpending
    rw [hstate]
    exact h.fresh hdr (List.filterMap_subset _ hpushes hhdr)
  · obtain ⟨hlive', hsame⟩ := hfm hlive
    rw [hstate] at hidle
    rw [hsame]
    exact h.fm hlive' hidle

theorem mem_sent_waiting {s : Bridge σ φ} {pkt : DmrdPacket} :
    pkt ∈ s.lanes.sent ++ waiting s ↔ pkt ∈ s.lanes.order ∨ pkt ∈ (pushes s.pending).filterMap enqueued := by
  simp only [waiting, Lanes.order, List.mem_append]
  tauto

theorem owed_step {P : Params σ φ} {s t : Bridge σ φ} {cut : CutOff} {a : BridgeAction} (h : Owed s cut)
    (hstep : step P s a = some t) : Owed t (CutOff.note P s cut a) := by
  cases step_move hstep with
  | @handle env ev hev hpending hcancelled hcontrol =>
    apply h.react_heard P env ev hpending
    rintro rfl
    cases hev
  | @handleControl env event control hpending hcancelled hcontrol =>
    refine ⟨h.react_dmr P env (.control event) hpending (List.subset_append_right _ _) fun _ call hcall => ?_,
      react_fresh P s env (.control event), fun hlive hidle huncut => ?_⟩
    · simp [CutOff.note, openStream, Option.mem_def.mp hcall]
    · obtain ⟨hnone, huncut⟩ : s.machine.state.rxStream = none ∧ cut.incoming = false := by
        simpa [CutOff.note] using huncut
      exact h.react_fm P env (.control event) hpending (fun _ => hnone) (fun _ => huncut) hlive hidle
  | @shutdown env hpending hend =>
    have howed := h.react_heard P env .shutdown hpending (by simp)
    exact ⟨howed.dmr, howed.fresh, howed.fm⟩
  | control hpending | voice hpending =>
    refine h.move rfl (by simp [hpending]) (fun pkt => ?_) fun hlive => ⟨hlive, ?_⟩
    · simp [waiting, hpending, Lanes.pushHigh, Lanes.pushLow, pushes, pushOf, enqueued, or_left_comm]
    · simp [fmWaiting, hpending, List.filterMap_cons, audioOf]
  | full hpending =>
    refine h.move rfl (by simp [hpending]) (fun pkt => ?_) fun hlive => ⟨hlive, ?_⟩
    · simp [waiting, hpending, pushes, pushOf, enqueued]
    · simp [fmWaiting, hpending, List.filterMap_cons, audioOf]
  | @other o pending audioOut hpending ho haudio =>
    refine h.move rfl (by simp [hpending]) (fun pkt => ?_) fun hlive => ⟨hlive, ?_⟩
    · simp [waiting, hpending, pushes, ho]
    · simp only [fmWaiting, hpending, haudio hlive]
      cases hframe : audioOf o <;> simp [hframe]
  | send hup hcancelled hpop =>
    refine h.move rfl (List.Subset.refl _) (fun pkt => ?_) fun hlive => ⟨hlive, rfl⟩
    rw [mem_sent_waiting, mem_sent_waiting]
    simp only [Lanes.order_pop hpop]
  | lose => exact h.move rfl (List.Subset.refl _) (fun _ => Iff.rfl) fun hlive => ⟨hlive, rfl⟩
  | authenticate hdown hcancelled =>
    -- The drained queues and the old socket are gone; a header that is still to be sent opens the call of now.
    refine ⟨fun hdr hhdr hheader => .inr (.inl ?_), h.fresh, h.fm⟩
    exact h.fresh hdr (by simpa [waiting, Lanes.empty] using hhdr) hheader
  | close => exact h.move rfl (List.Subset.refl _) (fun _ => Iff.rfl) fun hlive => ⟨hlive, rfl⟩
  | cancel => exact h.move rfl (List.Subset.refl _) (fun _ => Iff.rfl) fun hlive => ⟨hlive, rfl⟩
  | fm audioOut fm fmSent ha hlive _ hflow =>
    have hnote : CutOff.note P s cut a = cut := by
      cases a with
      | fmTake | fmWake | fmStop => rfl
      | _ => cases ha
    rw [hnote]
    refine h.move rfl (List.Subset.refl _) (fun _ => Iff.rfl) fun hstill => ⟨hlive, ?_⟩
    have hsame := congrArg (· ++ s.pending.filterMap audioOf) (hflow hstill)
    simpa [fmWaiting] using hsame

theorem owed_start (vocoder : σ) (filter : Option φ) : Owed (start vocoder filter : Bridge σ φ) .start := by
  refine ⟨?_, by simp [start, pushes], fun _ _ _ hsome => ?_⟩
  · simp [Covered, start, Lanes.empty, waiting, pushes]
  · obtain ⟨frame, hframe, -⟩ := hsome
    cases hframe

def shutDown : List BridgeAction := [.close, .fmStop, .shutdown (sampleEnv 9 0)]

/-- A call whose terminator is on the wire. -/
def endedCall : List BridgeAction := connect ++ oneBurst 3 ++ [.send, .send] ++ releaseKey ++ [.send]

end Bridge

end DmrBridge
