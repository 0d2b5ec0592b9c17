import DmrBridge.Rx
import DmrBridge.Lib.Run
import Mathlib.Data.List.Induction

/-!
# The packets of an outgoing call

Header, bursts and terminator of every call, in terms of the number of bursts built before. The
four counters of the machine are functions of that one number.
-/

open Run

namespace DmrBridge

variable {σ φ : Type}

/-! ## The format -/

/-- One outgoing call: what was encoded for it, and the packets built. -/
structure TxLog where
  streamId : UInt32
  bursts : List (Vector AmbeFrame 3)
  ended : Bool
  packets : List DmrdPacket

/-- LCSS of bursts B to E. -/
def burstLcss : Nat → UInt8
  | 1 => 1
  | 2 | 3 => 3
  | 4 => 2
  | _ => 0

/-- The centre of burst `k`, in a superframe that carries LC number `superframe`. -/
def centre (config : VoiceConfig) (rotation : List Fragments) (superframe k : Nat) : Bytes 6 :=
  match k % 6 with
  | 0 => bsVoiceSync
  | 5 => buildNullEmb config.colorCode.value
  | v => buildEmbSection config.colorCode.value (burstLcss v)
      ((rotation.getD (superframe % rotation.length) (.replicate 4 (.replicate 4 0))).getD (v - 1) (.replicate 4 0))

/-- Burst `k` of the call `streamId`, counted from 0. -/
def burstAt (config : VoiceConfig) (rotation : List Fragments) (streamId : UInt32) (superframe k : Nat)
    (ambe : Vector AmbeFrame 3) : Dmrd :=
  buildDmrd (UInt8.ofNat (k + 1)) config streamId (if k % 6 = 0 then .voiceSync else .voice) (UInt8.ofNat (k % 6))
    (assembleBurst ambe (centre config rotation superframe k))

/-- The packets of a call parse to its header, its bursts and, at the end, its terminator. -/
structure Format (config : VoiceConfig) (rotation : List Fragments) (superframe : Nat → Nat) (call : TxLog) :
    Prop where
  packets : ∃ hdr mid term, call.packets = hdr :: mid ++ term ∧
    (∃ d, dmrdOf hdr = some d ∧ IsControlDmrd config 0 call.streamId dataTypeVoiceHeader d) ∧
    mid.map dmrdOf =
      call.bursts.mapIdx (fun k ambe => some (burstAt config rotation call.streamId (superframe k) k ambe)) ∧
    if call.ended then
      ∃ pkt d, term = [pkt] ∧ dmrdOf pkt = some d ∧
        IsControlDmrd config (UInt8.ofNat (call.bursts.length + 1)) call.streamId dataTypeVoiceTerminator d
    else term = []

/-! ## The counters -/

structure CountersAt (rotation : List Fragments) (streamId : UInt32) (n : Nat) (tx : TxCall) : Prop where
  streamId : tx.streamId = streamId
  dmrdSeq : tx.dmrdSeq = UInt8.ofNat (n + 1)
  vseq : tx.vseq = UInt8.ofNat (n % 6)
  superframeIdx : tx.superframeIdx = UInt32.ofNat (n / 6)
  lcRotation : tx.lcRotation = rotation

theorem ofNat_succ (n : Nat) : UInt8.ofNat n + 1 = UInt8.ofNat (n + 1) := (UInt8.ofNat_add n 1).symm

theorem next_vseq (n : Nat) : (UInt8.ofNat (n % 6) + 1) % 6 = UInt8.ofNat ((n + 1) % 6) := by
  have h : ∀ r : Fin 6, (UInt8.ofNat r + 1) % 6 = UInt8.ofNat ((r + 1) % 6) := by decide
  have hr := h ⟨n % 6, Nat.mod_lt n (by decide)⟩
  rw [hr]
  congr 1
  simp

theorem ofNat_mod_eq_zero (n : Nat) : UInt8.ofNat (n % 6) = 0 ↔ n % 6 = 0 := by
  have h : ∀ r : Fin 6, UInt8.ofNat r = 0 ↔ r.val = 0 := by decide
  exact h ⟨n % 6, Nat.mod_lt n (by decide)⟩

theorem CountersAt.advance {rotation : List Fragments} {streamId : UInt32} {n : Nat} {tx : TxCall}
    (h : CountersAt rotation streamId n tx) (buf : List PcmFrame) :
    CountersAt rotation streamId (n + 1) { tx.advance with pcmBuf := buf } where
  streamId := h.streamId
  dmrdSeq := by simp only [TxCall.advance, h.dmrdSeq, ofNat_succ]
  vseq := by simp only [TxCall.advance, h.vseq, next_vseq]
  superframeIdx := by
    simp only [TxCall.advance, h.vseq, next_vseq, h.superframeIdx, ofNat_mod_eq_zero]
    split
    · rw [show (n + 1) / 6 = n / 6 + 1 by omega, UInt32.ofNat_add]
      rfl
    · rw [show (n + 1) / 6 = n / 6 by omega]
  lcRotation := h.lcRotation

theorem CountersAt.withBuf {rotation : List Fragments} {streamId : UInt32} {n : Nat} {tx : TxCall}
    (h : CountersAt rotation streamId n tx) (buf : List PcmFrame) :
    CountersAt rotation streamId n { tx with pcmBuf := buf } :=
  ⟨h.streamId, h.dmrdSeq, h.vseq, h.superframeIdx, h.lcRotation⟩

theorem burstSync_eq {config : VoiceConfig} {rotation : List Fragments} {streamId : UInt32} {n : Nat} {tx : TxCall}
    (h : CountersAt rotation streamId n tx) :
    burstSync config tx = centre config rotation (UInt32.ofNat (n / 6)).toNat n := by
  obtain rfl := h.lcRotation
  have hfrag (idx : Fin 4) : rotationFragment tx idx =
      (tx.lcRotation.getD ((UInt32.ofNat (n / 6)).toNat % tx.lcRotation.length)
        (.replicate 4 (.replicate 4 0))).getD idx (.replicate 4 0) := by
    simp only [rotationFragment, h.superframeIdx, List.getD_eq_getElem?_getD,
      List.getElem?_eq_getElem (Nat.mod_lt _ tx.rotation_pos), Option.getD_some]
    simp [Vector.getD]
  have hv : tx.vseq.toNat = n % 6 := by
    rw [h.vseq]
    exact UInt8.toNat_ofNat_of_lt' (Nat.lt_trans (Nat.mod_lt n (by decide)) (by decide))
  unfold burstSync centre
  rw [hv]
  rcases (by omega : n % 6 = 0 ∨ n % 6 = 1 ∨ n % 6 = 2 ∨ n % 6 = 3 ∨ n % 6 = 4 ∨ n % 6 = 5) with
    h0 | h1 | h2 | h3 | h4 | h5
  · simp [h0]
  · simp [h1, hfrag, burstLcss, lcssForFragment, lcssFirst]
  · simp [h2, hfrag, burstLcss, lcssForFragment, lcssContinuation]
  · simp [h3, hfrag, burstLcss, lcssForFragment, lcssContinuation]
  · simp only [h4, hfrag, burstLcss, lcssForFragment, lcssLast]
    rfl
  · simp [h5, buildNullEmb]

theorem burstDmrd_eq {config : VoiceConfig} {rotation : List Fragments} {streamId : UInt32} {n : Nat} {tx : TxCall}
    (h : CountersAt rotation streamId n tx) (ambe : Vector AmbeFrame 3) :
    burstDmrd config ambe tx = burstAt config rotation streamId (UInt32.ofNat (n / 6)).toNat n ambe := by
  simp only [burstDmrd, burstAt, burstSync_eq h, h.dmrdSeq, h.vseq, h.streamId, ofNat_mod_eq_zero]

/-! ## One turn -/

def builtOf : Output → Option DmrdPacket
  | .voice pkt _ | .control pkt => some pkt
  | _ => none

/-- The frames a turn gets from the encoder, if it tries and the encoder does not fail. -/
def encodedIn (P : Params σ φ) (m : Machine σ φ) (e : Env × PttEvent) : Option (Vector AmbeFrame 3) :=
  match m.state with
  | .tx tx =>
    (attempted P.config e.1 tx e.2).bind fun buf => (encodeBurst P m.codec e.1.calls (takeBurst buf)).2
  | _ => none

def encoding (P : Params σ φ) (m : Machine σ φ) (e : Env × PttEvent) : Machine σ φ × List (Vector AmbeFrame 3) :=
  ((turn P m e).1, (encodedIn P m e).toList)

/-- The log of the calls so far, the last of them perhaps open. Counts superframes in 32 bits. -/
structure TxInv (P : Params σ φ) (rotation : List Fragments) (s : PttState) (log : List Output)
    (encoded : List (Vector AmbeFrame 3)) (calls : List TxLog) (last : Option TxLog) : Prop where
  built : log.filterMap builtOf = calls.flatMap TxLog.packets ++ last.elim [] TxLog.packets
  encoded : encoded = calls.flatMap TxLog.bursts ++ last.elim [] TxLog.bursts
  calm : .panicked ∉ log
  ended : ∀ call ∈ calls, call.ended = true
  format : ∀ call ∈ calls, Format P.config rotation (fun k => (UInt32.ofNat (k / 6)).toNat) call
  idle : s.isTx = false → last = none
  tx : ∀ tx, s = .tx tx → ∃ call, last = some call ∧ call.ended = false ∧
    Format P.config rotation (fun k => (UInt32.ofNat (k / 6)).toNat) call ∧
    CountersAt rotation call.streamId call.bursts.length tx

section
variable {P : Params σ φ} {rotation : List Fragments}

theorem builtOf_receive {outs : List Output} (h : ∀ o ∈ outs, o.dir = .dmrToFm) :
    outs.filterMap builtOf = [] ∧ .panicked ∉ outs := by
  constructor
  · rw [List.filterMap_eq_nil_iff]
    intro o ho
    have hdir := h o ho
    match o with
    | .audio _ | .metadata _ | .stats _ => rfl
  · intro hp
    cases h _ hp

theorem builtOf_trySend (env : Env) (pkt : DmrdPacket) :
    (trySendVoiceDmrd env pkt).filterMap builtOf = [pkt] ∧ .panicked ∉ trySendVoiceDmrd env pkt := by
  unfold trySendVoiceDmrd
  split
  · exact ⟨rfl, by simp [dropBurst]⟩
  · exact ⟨rfl, by simp⟩

def TxLog.addBurst (call : TxLog) (ambe : Vector AmbeFrame 3) (pkt : DmrdPacket) : TxLog :=
  { call with bursts := call.bursts ++ [ambe], packets := call.packets ++ [pkt] }

theorem Format.addBurst {superframe : Nat → Nat} {call : TxLog} {ambe : Vector AmbeFrame 3} {pkt : DmrdPacket}
    (h : Format P.config rotation superframe call) (hopen : call.ended = false)
    (hpkt : dmrdOf pkt = some (burstAt P.config rotation call.streamId (superframe call.bursts.length)
      call.bursts.length ambe)) : Format P.config rotation superframe (call.addBurst ambe pkt) := by
  obtain ⟨hdr, mid, term, hpackets, hhdr, hmid, hterm⟩ := h.packets
  simp only [hopen, Bool.false_eq_true, if_false] at hterm
  subst hterm
  refine ⟨hdr, mid ++ [pkt], [], ?_, hhdr, ?_, ?_⟩
  · simp [TxLog.addBurst, hpackets]
  · simp [TxLog.addBurst, hmid, List.mapIdx_append, hpkt]
  · simp [TxLog.addBurst, hopen]

theorem Format.finish {superframe : Nat → Nat} {call : TxLog} {term : DmrdPacket} {d : Dmrd}
    (h : Format P.config rotation superframe call) (hopen : call.ended = false) (hterm : dmrdOf term = some d)
    (hd : IsControlDmrd P.config (UInt8.ofNat (call.bursts.length + 1)) call.streamId dataTypeVoiceTerminator d) :
    Format P.config rotation superframe { call with ended := true, packets := call.packets ++ [term] } := by
  obtain ⟨hdr, mid, rest, hpackets, hhdr, hmid, hrest⟩ := h.packets
  simp only [hopen, Bool.false_eq_true, if_false] at hrest
  subst hrest
  refine ⟨hdr, mid, [term], ?_, hhdr, hmid, ?_⟩
  · simp [hpackets]
  · exact ⟨term, d, rfl, hterm, hd⟩

/-- The open call `call` has become `call'`, with `more` encoded and `outs` sent on the way. -/
structure Extension (P : Params σ φ) (rotation : List Fragments) (call : TxLog) (more : List (Vector AmbeFrame 3))
    (outs : List Output) (call' : TxLog) (tx' : TxCall) : Prop where
  stillOpen : call'.ended = false
  packets : call'.packets = call.packets ++ outs.filterMap builtOf
  bursts : call'.bursts = call.bursts ++ more
  calm : .panicked ∉ outs
  format : Format P.config rotation (fun k => (UInt32.ofNat (k / 6)).toNat) call'
  counters : CountersAt rotation call'.streamId call'.bursts.length tx'

theorem Extension.nothing {call : TxLog} {tx : TxCall} (hopen : call.ended = false)
    (hformat : Format P.config rotation (fun k => (UInt32.ofNat (k / 6)).toNat) call)
    (hcount : CountersAt rotation call.streamId call.bursts.length tx) : Extension P rotation call [] [] call tx :=
  ⟨hopen, by simp, by simp, by simp, hformat, hcount⟩

theorem Extension.burst {env : Env} {c : Codec σ φ} {tx tx' : TxCall} {outs : List Output} {call : TxLog}
    (h : BurstMove P env c tx tx' outs) (hopen : call.ended = false)
    (hformat : Format P.config rotation (fun k => (UInt32.ofNat (k / 6)).toNat) call)
    (hcount : CountersAt rotation call.streamId call.bursts.length tx) :
    ∃ call', Extension P rotation call (encodeBurst P c env.calls (takeBurst tx.pcmBuf)).2.toList outs call' tx' := by
  cases h with
  | failed henc =>
    exact ⟨call, hopen, by simp [dropBurst, builtOf], by simp [henc], by simp [dropBurst], hformat, hcount.withBuf []⟩
  | sent ambe pkt henc hpkt =>
    obtain ⟨hbuilt, hcalm⟩ := builtOf_trySend env pkt
    rw [burstDmrd_eq hcount] at hpkt
    refine ⟨call.addBurst ambe pkt, hopen, ?_, ?_, hcalm, hformat.addBurst hopen hpkt, ?_⟩
    · rw [hbuilt]
      rfl
    · rw [henc]
      rfl
    · have hnext := hcount.advance []
      simpa [TxLog.addBurst] using hnext

theorem Extension.flush {env : Env} {c : Codec σ φ} {ev : PttEvent} {tx tx' : TxCall} {outs : List Output}
    {call : TxLog} {reason : TerminationReason} (h : FlushMove P env c tx tx' outs)
    (hreason : endReason P.config env tx ev = some reason) (hopen : call.ended = false)
    (hformat : Format P.config rotation (fun k => (UInt32.ofNat (k / 6)).toNat) call)
    (hcount : CountersAt rotation call.streamId call.bursts.length tx) :
    ∃ call', Extension P rotation call (encodedIn P ⟨.tx tx, c⟩ (env, ev)).toList outs call' tx' := by
  cases h with
  | empty hbuf =>
    have hnone : encodedIn P ⟨.tx tx, c⟩ (env, ev) = none := by simp [encodedIn, attempted, hreason, hbuf]
    rw [hnone]
    exact ⟨call, Extension.nothing hopen hformat hcount⟩
  | burst hbuf hburst =>
    obtain ⟨call', hext⟩ := Extension.burst hburst hopen hformat hcount
    have hsome : encodedIn P ⟨.tx tx, c⟩ (env, ev) = (encodeBurst P c env.calls (takeBurst tx.pcmBuf)).2 := by
      simp [encodedIn, attempted, hreason, hbuf]
    rw [hsome]
    exact ⟨call', hext⟩

theorem TxInv.advance {tx tx' : TxCall} {log outs : List Output} {encoded more : List (Vector AmbeFrame 3)}
    {calls : List TxLog} {call call' : TxLog} (h : TxInv P rotation (.tx tx) log encoded calls (some call))
    (hext : Extension P rotation call more outs call' tx') :
    TxInv P rotation (.tx tx') (log ++ outs) (encoded ++ more) calls (some call') where
  built := by simp [h.built, hext.packets]
  encoded := by simp [h.encoded, hext.bursts]
  calm := by simp [h.calm, hext.calm]
  ended := h.ended
  format := h.format
  idle hs := by cases hs
  tx := by
    rintro t ⟨⟩
    exact ⟨call', rfl, hext.stillOpen, hext.format, hext.counters⟩

theorem TxInv.finish {tx tx' : TxCall} {log flushed : List Output} {encoded more : List (Vector AmbeFrame 3)}
    {calls : List TxLog} {call call' : TxLog} {term : DmrdPacket} {d : Dmrd} {reason : TerminationReason}
    (h : TxInv P rotation (.tx tx) log encoded calls (some call))
    (hext : Extension P rotation call more flushed call' tx') (hterm : dmrdOf term = some d)
    (hd : IsControlDmrd P.config (UInt8.ofNat (call'.bursts.length + 1)) call'.streamId dataTypeVoiceTerminator d) :
    TxInv P rotation .idle (log ++ (flushed ++ [.control term, .stats (.callEnd .fmToDmr reason)])) (encoded ++ more)
      (calls ++ [{ call' with ended := true, packets := call'.packets ++ [term] }]) none where
  built := by simp [h.built, hext.packets, builtOf, List.filterMap_cons]
  encoded := by simp [h.encoded, hext.bursts]
  calm := by simp [h.calm, hext.calm]
  ended := by
    intro c hc
    rcases List.mem_append.mp hc with hc | hc
    · exact h.ended c hc
    · rw [List.mem_singleton.mp hc]
  format := by
    intro c hc
    rcases List.mem_append.mp hc with hc | hc
    · exact h.format c hc
    · rw [List.mem_singleton.mp hc]
      exact hext.format.finish hext.stillOpen hterm hd
  idle _ := rfl
  tx := by
    rintro t ⟨⟩

theorem txInv_step (hrot : buildLcRotation P.config = some rotation) {env : Env} {c : Codec σ φ} {ev : PttEvent}
    {s s' : PttState} {log outs : List Output} {encoded : List (Vector AmbeFrame 3)} {calls : List TxLog}
    {last : Option TxLog} (h : TxInv P rotation s log encoded calls last) (hmove : TxMove P env c ev s s' outs)
    (hev : ∀ x, ev ≠ .control x) :
    ∃ calls' last',
      TxInv P rotation s' (log ++ outs) (encoded ++ (encodedIn P ⟨s, c⟩ (env, ev)).toList) calls' last' := by
  cases hmove with
  | receive hs hs' houts =>
    obtain rfl := h.idle hs
    obtain ⟨hbuilt, hcalm⟩ := builtOf_receive houts
    have hnone : encodedIn P ⟨s, c⟩ (env, ev) = none := by
      cases s with
      | tx tx => cases hs
      | _ => rfl
    refine ⟨calls, none, ⟨?_, ?_, ?_, h.ended, h.format, fun _ => rfl, ?_⟩⟩
    · simp [h.built, hbuilt]
    · simp [h.encoded, hnone]
    · simp [h.calm, hcalm]
    · rintro tx rfl
      cases hs'
  | @start frame audio rotation' hdr d _ _ _ hrot' hpos hhdr hd =>
    obtain rfl : rotation = rotation' := Option.some.inj (hrot.symm.trans hrot')
    obtain rfl := h.idle rfl
    refine ⟨calls, some ⟨env.streamId, [], false, [hdr]⟩, ⟨?_, ?_, ?_, h.ended, h.format, fun hs => (by cases hs), ?_⟩⟩
    · simp [h.built, builtOf, txCallStart, List.filterMap_cons]
    · simp [h.encoded, encodedIn]
    · simp [h.calm, txCallStart]
    · rintro tx ⟨⟩
      exact ⟨_, rfl, rfl, ⟨hdr, [], [], rfl, ⟨d, hhdr, hd⟩, rfl, by simp⟩,
        ⟨rfl, rfl, rfl, by simp [newTxCall], rfl⟩⟩
  | @keep _ tx hnone =>
    obtain ⟨call, rfl, hopen, hformat, hcount⟩ := h.tx _ rfl
    have hquiet : encodedIn P ⟨.tx tx, c⟩ (env, ev) = none := by simp [encodedIn, hnone]
    rw [hquiet]
    exact ⟨calls, some call, h.advance (.nothing hopen hformat hcount)⟩
  | @buffer frame audio tx hkey hlen =>
    obtain ⟨call, rfl, hopen, hformat, hcount⟩ := h.tx _ rfl
    have hquiet : encodedIn P ⟨.tx tx, c⟩ (env, .audio frame) = none := by
      simp [encodedIn, attempted, endReason, hkey, hlen]
    rw [hquiet]
    exact ⟨calls, some call, h.advance (.nothing hopen hformat (hcount.withBuf _))⟩
  | @burst frame audio tx tx' _ hgw hkey hframe hlen hburst =>
    obtain ⟨call, rfl, hopen, hformat, hcount⟩ := h.tx _ rfl
    obtain ⟨call', hext⟩ := Extension.burst hburst hopen hformat (hcount.withBuf _)
    have hsome : encodedIn P ⟨.tx tx, c⟩ (env, .audio frame) =
        (encodeBurst P c env.calls (takeBurst (tx.pcmBuf ++ [audio]))).2 := by
      simp [encodedIn, attempted, endReason, hkey, hframe, hgw, Nat.not_lt.mpr hlen]
    rw [hsome]
    exact ⟨calls, some call', h.advance hext⟩
  | finish hreason hflush hterm hd =>
    obtain ⟨call, rfl, hopen, hformat, hcount⟩ := h.tx _ rfl
    obtain ⟨call', hext⟩ := Extension.flush hflush hreason hopen hformat hcount
    rw [hext.counters.dmrdSeq, hext.counters.streamId] at hd
    exact ⟨_, none, h.finish hext hterm hd⟩
  | reset => exact absurd rfl (hev _)

end

/-! ## Whole runs -/

theorem exec_encoding_fst (P : Params σ φ) (m : Machine σ φ) (evs : List (Env × PttEvent)) :
    (exec (encoding P) m evs).1 = (exec (turn P) m evs).1 := by
  apply exec_fst_congr
  intro m e
  rfl

theorem txInv_run {P : Params σ φ} {rotation : List Fragments} (hrot : buildLcRotation P.config = some rotation)
    (vocoder : σ) (filter : Option φ) (evs : List (Env × PttEvent)) (hevs : ∀ e ∈ evs, ∀ x, e.2 ≠ .control x) :
    ∃ calls last, TxInv P rotation (exec (turn P) (newMachine vocoder filter) evs).1.state
      (exec (turn P) (newMachine vocoder filter) evs).2 (exec (encoding P) (newMachine vocoder filter) evs).2
      calls last := by
  induction evs using List.reverseRecOn with
  | nil => exact ⟨[], none, ⟨rfl, rfl, by simp, by simp, by simp, fun _ => rfl, fun tx htx => by cases htx⟩⟩
  | append_singleton evs e ih =>
    obtain ⟨calls, last, hinv⟩ := ih fun e' he' => hevs e' (List.mem_append_left _ he')
    rw [exec_snoc, exec_snoc, exec_encoding_fst]
    exact txInv_step hrot hinv (handle_move P _ e.1 e.2) (hevs e (by simp))

/-- Only burst 0 of a superframe carries the voice sync: no EMB codeword looks like it. -/
theorem centre_eq_sync_iff (config : VoiceConfig) (rotation : List Fragments) (superframe k : Nat) :
    centre config rotation superframe k = bsVoiceSync ↔ k % 6 = 0 := by
  have hcode : ∀ i : Fin 128, ¬ ((qr1676Table[i] >>> 8).toUInt8 = 0x75 ∧ (qr1676Table[i] &&& 0xFF).toUInt8 = 0xF7) := by
    decide +kernel
  have hemb (cc lcss : UInt8) (lc : Bytes 4) : buildEmbSection cc lcss lc ≠ bsVoiceSync := by
    intro h
    have h0 := congrArg (·[0]) h
    have h5 := congrArg (·[5]) h
    exact hcode ⟨((((cc &&& 0x0F) <<< 3) ||| (lcss &&& 0x03)) &&& 0x7F).toNat, index_u7 _⟩ ⟨h0, h5⟩
  unfold centre
  split
  · simp_all
  · rename_i h5
    simp [h5, buildNullEmb, hemb]
  · rename_i h0 _
    exact iff_of_false (hemb _ _ _) h0

theorem Format.congr {config : VoiceConfig} {rotation : List Fragments} {f g : Nat → Nat} {call : TxLog}
    (h : Format config rotation f call) (hfg : ∀ k < call.bursts.length, f k = g k) :
    Format config rotation g call := by
  obtain ⟨hdr, mid, term, hpackets, hhdr, hmid, hterm⟩ := h.packets
  refine ⟨hdr, mid, term, hpackets, hhdr, ?_, hterm⟩
  rw [hmid]
  apply List.ext_getElem (by simp)
  intro k hk _
  simp [hfg k (by simpa using hk)]

/-- What a run of an outgoing side builds: whole calls, and perhaps one that is still open. -/
structure TxRun (P : Params σ φ) (rotation : List Fragments) (state : PttState) (log : List Output)
    (encoded : List (Vector AmbeFrame 3)) (calls : List TxLog) (last : Option TxLog) : Prop where
  built : log.filterMap builtOf = calls.flatMap TxLog.packets ++ last.elim [] TxLog.packets
  /-- Every encoded burst is in its call, and an encoder failure has left no trace. -/
  encoded : encoded = calls.flatMap TxLog.bursts ++ last.elim [] TxLog.bursts
  calm : .panicked ∉ log
  ended : ∀ call ∈ calls, call.ended = true
  lastOpen : last.isSome = state.isTx ∧ ∀ call ∈ last, call.ended = false
  /-- For a call of less than 2^32 superframes. -/
  format : ∀ call ∈ calls ++ last.toList, call.bursts.length ≤ 6 * 2 ^ 32 → Format P.config rotation (· / 6) call
  sync : ∀ k, centre P.config rotation (k / 6) k = bsVoiceSync ↔ k % 6 = 0
  /-- A receiver gets the three encoded frames of each burst. -/
  frames : ∀ call ∈ calls ++ last.toList, ∀ k (hk : k < call.bursts.length),
    extractAmbe (burstAt P.config rotation call.streamId (k / 6) k call.bursts[k]).dmrData = call.bursts[k]

theorem TxInv.run {P : Params σ φ} {rotation : List Fragments} {s : PttState} {log : List Output}
    {encoded : List (Vector AmbeFrame 3)} {calls : List TxLog} {last : Option TxLog}
    (h : TxInv P rotation s log encoded calls last) : TxRun P rotation s log encoded calls last where
  built := h.built
  encoded := h.encoded
  calm := h.calm
  ended := h.ended
  lastOpen := by
    cases s with
    | tx tx =>
      obtain ⟨call, rfl, hopen, -⟩ := h.tx tx rfl
      exact ⟨rfl, by simpa using hopen⟩
    | _ =>
      obtain rfl := h.idle rfl
      exact ⟨rfl, by simp⟩
  format := by
    intro call hcall hlen
    have hwrap : Format P.config rotation (fun k => (UInt32.ofNat (k / 6)).toNat) call := by
      rcases List.mem_append.mp hcall with hc | hc
      · exact h.format call hc
      · cases s with
        | tx tx =>
          obtain ⟨c, rfl, -, hformat, -⟩ := h.tx tx rfl
          rw [List.mem_singleton.mp hc]
          exact hformat
        | _ =>
          obtain rfl := h.idle rfl
          cases hc
    -- The 32-bit counter has not wrapped.
    refine hwrap.congr fun k hk => UInt32.toNat_ofNat_of_lt' ?_
    have : k / 6 < 2 ^ 32 := by omega
    exact this
  sync k := centre_eq_sync_iff P.config rotation (k / 6) k
  frames _ _ _ _ := extractAmbe_assembleBurst _ _

/-- Audio, timeouts, shutdowns and packets in any order, from `Idle` on. -/
theorem tx_call_format (P : Params σ φ) (vocoder : σ) (filter : Option φ) (evs : List (Env × PttEvent))
    (hevs : ∀ e ∈ evs, ∀ x, e.2 ≠ .control x) :
    ∃ rotation calls last, buildLcRotation P.config = some rotation ∧
      TxRun P rotation (exec (turn P) (newMachine vocoder filter) evs).1.state
        (exec (turn P) (newMachine vocoder filter) evs).2 (exec (encoding P) (newMachine vocoder filter) evs).2
        calls last := by
  obtain ⟨rotation, hrot, -⟩ := buildLcRotation_spec P.config
  obtain ⟨calls, last, hinv⟩ := txInv_run hrot vocoder filter evs hevs
  exact ⟨rotation, calls, last, hrot, hinv.run⟩

/-- Key-up, two more frames and unkey. -/
def oneBurstCall : List (Env × PttEvent) :=
  List.replicate 3 (sampleEnv 0 3, .audio ⟨true, some silence, none⟩) ++ [(sampleEnv 0 0, .audio ⟨false, none, none⟩)]

/-- One burst between header and terminator, with the sync pattern of a first burst. -/
theorem tx_call_format_sample :
    ((exec (turn sampleParams) (newMachine () none) oneBurstCall).2.filterMap builtOf).map
        (fun pkt => (dmrdOf pkt).map fun d => (d.streamId, d.seq, d.frameType, d.dtypeVseq)) =
      [some (3, 0, .dataSync, dataTypeVoiceHeader), some (3, 1, .voiceSync, 0),
        some (3, 2, .dataSync, dataTypeVoiceTerminator)] ∧
    ∃ rotation calls last, buildLcRotation sampleParams.config = some rotation ∧
      TxRun sampleParams rotation (exec (turn sampleParams) (newMachine () none) oneBurstCall).1.state
        (exec (turn sampleParams) (newMachine () none) oneBurstCall).2
        (exec (encoding sampleParams) (newMachine () none) oneBurstCall).2 calls last :=
  ⟨by decide +kernel, tx_call_format sampleParams () none oneBurstCall (by simp [oneBurstCall])⟩

end DmrBridge
