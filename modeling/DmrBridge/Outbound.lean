import DmrBridge.Rx

/-!
# What goes to the outbound queues

A packet on a queue is known by its stream, its kind and its number. `CallMove` is the machine as
the queues see it: a call that opens, carries bursts and ends.
-/

namespace DmrBridge

variable {σ φ : Type}

inductive PacketKind where
  | header
  | burst
  | terminator
  | other
  deriving DecidableEq

structure Label where
  stream : UInt32
  kind : PacketKind
  seq : UInt8
  deriving DecidableEq

def kindOf (dtypeVseq : UInt8) : FrameType → PacketKind
  | .dataSync =>
    if dtypeVseq = dataTypeVoiceHeader then .header
    else if dtypeVseq = dataTypeVoiceTerminator then .terminator
    else .other
  | .voice | .voiceSync => .burst

def labelOf (pkt : DmrdPacket) : Option Label :=
  (dmrdOf pkt).map fun d => { stream := d.streamId, kind := kindOf d.dtypeVseq d.frameType, seq := d.seq }

def streamOf (pkt : DmrdPacket) : Option UInt32 := (labelOf pkt).map (·.stream)

def onStream (sid : UInt32) (pkt : DmrdPacket) : Bool := streamOf pkt = some sid

theorem onStream_iff (sid : UInt32) (pkt : DmrdPacket) :
    onStream sid pkt = true ↔ ∃ l, labelOf pkt = some l ∧ l.stream = sid := by
  simp [onStream, streamOf]

def isHeader (pkt : DmrdPacket) : Bool := (labelOf pkt).any (·.kind = .header)

def isTerminator (pkt : DmrdPacket) : Bool := (labelOf pkt).any (·.kind = .terminator)

/-- A send to `dmrd_voice_out`, which may find it full, or to `dmrd_ctl_out`. -/
inductive Push where
  | voice (pkt : DmrdPacket) (queued : Bool)
  | control (pkt : DmrdPacket)
  deriving DecidableEq

def overflows : Output → Bool
  | .voice _ queued => !queued
  | _ => false

def controlOf : Output → Option DmrdPacket
  | .control pkt => some pkt
  | _ => none

def Push.packet : Push → DmrdPacket
  | .voice pkt _ | .control pkt => pkt

def pushOf : Output → Option Push
  | .voice pkt queued => some (.voice pkt queued)
  | .control pkt => some (.control pkt)
  | _ => none

def pushes (outs : List Output) : List Push := outs.filterMap pushOf

def packets (outs : List Output) : List DmrdPacket := (pushes outs).map Push.packet

theorem packets_cons_control (pkt : DmrdPacket) (outs : List Output) :
    packets (.control pkt :: outs) = pkt :: packets outs := rfl

theorem packets_cons_voice (pkt : DmrdPacket) (queued : Bool) (outs : List Output) :
    packets (.voice pkt queued :: outs) = pkt :: packets outs := rfl

theorem packets_cons_none {o : Output} (h : pushOf o = none) (outs : List Output) :
    packets (o :: outs) = packets outs := by
  unfold packets pushes
  rw [List.filterMap_cons, h]

/-! ## Calls as the queues see them -/

/-- An open call: its stream and the number of its next packet. -/
structure OpenCall where
  stream : UInt32
  seq : UInt8

def PttState.openCall : PttState → Option OpenCall
  | .tx call => some ⟨call.streamId, call.dmrdSeq⟩
  | _ => none

theorem openCall_of_receive {s : PttState} (h : s.isTx = false) : s.openCall = none := by
  cases s with
  | tx call => cases h
  | _ => rfl

/-- The stream of the call that starts between two states. -/
def opened (s s' : PttState) : Option UInt32 := if s.openCall.isNone then s'.openCall.map (·.stream) else none

inductive BurstPush (call : OpenCall) : OpenCall → List Push → Prop where
  | skip : BurstPush call call []
  | sent (pkt : DmrdPacket) (queued : Bool) (h : labelOf pkt = some ⟨call.stream, .burst, call.seq⟩) :
      BurstPush call { call with seq := call.seq + 1 } [.voice pkt queued]

/-- `fresh` is the stream that a call gets if it starts now. -/
inductive CallMove (fresh : UInt32) (ev : PttEvent) : Option OpenCall → Option OpenCall → List Push → Prop where
  | stay (call : Option OpenCall) : CallMove fresh ev call call []
  | start (hdr : DmrdPacket) (h : labelOf hdr = some ⟨fresh, .header, 0⟩) (hev : ∃ frame, ev = .audio frame) :
      CallMove fresh ev none (some ⟨fresh, 1⟩) [.control hdr]
  | burst {call call' : OpenCall} {ps : List Push} (h : BurstPush call call' ps) :
      CallMove fresh ev (some call) (some call') ps
  | finish {call call' : OpenCall} {ps : List Push} (hflush : BurstPush call call' ps) (term : DmrdPacket)
      (h : labelOf term = some ⟨call'.stream, .terminator, call'.seq⟩) :
      CallMove fresh ev (some call) none (ps ++ [.control term])
  | reset (call : OpenCall) (hev : ev = .control .networkReset) : CallMove fresh ev (some call) none []

theorem labelOf_control {config : VoiceConfig} {seq : UInt8} {sid : UInt32} {dataType : UInt8} {pkt : DmrdPacket}
    {d : Dmrd} (hpkt : dmrdOf pkt = some d) (hd : IsControlDmrd config seq sid dataType d) :
    labelOf pkt = some ⟨sid, kindOf dataType .dataSync, seq⟩ := by
  obtain ⟨lc, -, rfl⟩ := hd
  simp only [labelOf, hpkt, buildDmrd, Option.map_some]

theorem labelOf_burst {config : VoiceConfig} {ambe : Vector AmbeFrame 3} {tx : TxCall} {pkt : DmrdPacket}
    (h : dmrdOf pkt = some (burstDmrd config ambe tx)) : labelOf pkt = some ⟨tx.streamId, .burst, tx.dmrdSeq⟩ := by
  unfold labelOf
  rw [h, Option.map_some]
  by_cases hv : tx.vseq = 0 <;> simp [burstDmrd, buildDmrd, kindOf, hv]

theorem pushes_of_dir {outs : List Output} (h : ∀ o ∈ outs, o.dir = .dmrToFm) : pushes outs = [] := by
  unfold pushes
  rw [List.filterMap_eq_nil_iff]
  intro o ho
  have hdir := h o ho
  cases o with
  | voice pkt queued | control pkt => cases hdir
  | _ => rfl

theorem burstPush_of_move {P : Params σ φ} {env : Env} {c : Codec σ φ} {tx tx' : TxCall} {outs : List Output}
    (h : BurstMove P env c tx tx' outs) :
    BurstPush ⟨tx.streamId, tx.dmrdSeq⟩ ⟨tx'.streamId, tx'.dmrdSeq⟩ (pushes outs) := by
  cases h with
  | failed henc => exact .skip
  | sent ambe pkt henc hpkt =>
    have hlabel := labelOf_burst hpkt
    unfold trySendVoiceDmrd
    by_cases hfull : env.voiceFull = true
    · rw [if_pos hfull]
      exact .sent pkt false hlabel
    · rw [if_neg hfull]
      exact .sent pkt true hlabel

theorem burstPush_of_flush {P : Params σ φ} {env : Env} {c : Codec σ φ} {tx tx' : TxCall} {outs : List Output}
    (h : FlushMove P env c tx tx' outs) :
    BurstPush ⟨tx.streamId, tx.dmrdSeq⟩ ⟨tx'.streamId, tx'.dmrdSeq⟩ (pushes outs) := by
  cases h with
  | empty => exact .skip
  | burst _ h => exact burstPush_of_move h

/-- Every handler is one move of the call. -/
theorem handle_callMove (P : Params σ φ) (m : Machine σ φ) (env : Env) (ev : PttEvent) :
    CallMove env.streamId ev m.state.openCall (handle P m env ev).1.state.openCall
      (pushes (handle P m env ev).2) := by
  have hmove := handle_move P m env ev
  revert hmove
  generalize (handle P m env ev).1.state = s', (handle P m env ev).2 = outs
  generalize m.state = s
  intro hmove
  cases hmove with
  | receive hs hs' houts =>
    rw [pushes_of_dir houts, openCall_of_receive hs, openCall_of_receive hs']
    exact .stay none
  | start hgw hkey hframe hrot hpos hhdr hd => exact .start _ (labelOf_control hhdr hd) ⟨_, rfl⟩
  | keep => exact .stay _
  | buffer => exact .stay _
  | burst hgw hkey hframe hlen h =>
    have hpush := burstPush_of_move h
    exact .burst hpush
  | finish hev hflush hterm hd =>
    have hpush : ∀ (flushed : List Output) (term : DmrdPacket) (e : StatsEvent),
        pushes (flushed ++ [.control term, .stats e]) = pushes flushed ++ [.control term] := by
      intro flushed term e
      simp [pushes, pushOf]
    rw [hpush]
    exact .finish (burstPush_of_flush hflush) _ (labelOf_control hterm hd)
  | reset => exact .reset _ rfl

theorem opened_of_not_audio (P : Params σ φ) (m : Machine σ φ) (env : Env) (ev : PttEvent)
    (hev : ∀ frame, ev ≠ .audio frame) : opened m.state (handle P m env ev).1.state = none := by
  have hmove := handle_callMove P m env ev
  unfold opened
  revert hmove
  generalize pushes (handle P m env ev).2 = ps
  generalize m.state.openCall = before
  generalize (handle P m env ev).1.state.openCall = after
  intro hmove
  cases hmove with
  | stay => cases before <;> rfl
  | start hdr hl haudio =>
    obtain ⟨frame, hframe⟩ := haudio
    exact absurd hframe (hev frame)
  | burst => rfl
  | finish => rfl
  | reset => rfl

end DmrBridge
