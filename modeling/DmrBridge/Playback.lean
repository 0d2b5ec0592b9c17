import DmrBridge.FrameAccounting
import DmrBridge.LossAccounting
import DmrBridge.RxBracket
import DmrBridge.TxFormat

/-!
# A call on the receiving side

What a receiver asks of its vocoder for the packets of one call, some of which the network has lost. Lost bursts are
concealed frame by frame, or the decoder starts over.
-/

open Run

namespace DmrBridge

variable {σ φ : Type}

/-! ## The decoder -/

inductive Playback where
  /-- The call begins: reset, and a warm cache. -/
  | begin
  /-- The gap is a boundary. -/
  | restart
  | frame (ambe : Option AmbeFrame)
  deriving DecidableEq

def Playback.ambe : Playback → Option (Option AmbeFrame)
  | .frame ambe => some ambe
  | .begin | .restart => none

def Vocoder.play (V : Vocoder σ) (v : σ) : Playback → σ × List (Except VocoderError PcmFrame)
  | .begin => (V.warmCache (V.reset v), [])
  | .restart => (V.reset v, [])
  | .frame ambe => ((V.decode v ambe).1, [(V.decode v ambe).2])

/-- The frames on the way to FM. One that does not decode is left out. -/
def spoken (streamId : UInt32) (results : List (Except VocoderError PcmFrame)) : List AudioFrame :=
  (results.filterMap Except.toOption).map (makeVoiceFrame · streamId)

/-- Nobody cancels, nothing panics and FM keeps up. -/
structure Env.Calm (env : Env) : Prop where
  room : env.audioFull = false
  calls : ∀ i, (env.calls i).cancelBefore = false ∧ (env.calls i).cancelAfter = false ∧ (env.calls i).panics = false

structure Codec.Clean (c : Codec σ φ) : Prop where
  cancelled : c.cancelled = false
  poisoned : c.poisoned = false

/-- From `c` to `c'` the decoder has played `items`, and `outs` speaks what came of them. -/
structure Plays (P : Params σ φ) (streamId : UInt32) (c : Codec σ φ) (items : List Playback) (c' : Codec σ φ)
    (outs : List Output) : Prop where
  codec : c' = { c with vocoder := (exec P.vocoder.play c.vocoder items).1 }
  audio : outs.filterMap audioOf = spoken streamId (exec P.vocoder.play c.vocoder items).2

section
variable {P : Params σ φ} {env : Env} {sid : UInt32} {c c' c'' : Codec σ φ}

theorem Codec.Clean.vocoder (h : c.Clean) (v : σ) : Codec.Clean { c with vocoder := v } := ⟨h.cancelled, h.poisoned⟩

theorem Plays.clean {items : List Playback} {outs : List Output} (h : Plays P sid c items c' outs) (hc : c.Clean) :
    c'.Clean := by
  rw [h.codec]
  exact hc.vocoder _

theorem Plays.silent {outs : List Output} (houts : outs.filterMap audioOf = []) : Plays P sid c [] c outs :=
  ⟨rfl, houts⟩

theorem Plays.trans {items items' : List Playback} {outs outs' : List Output} (h : Plays P sid c items c' outs)
    (h' : Plays P sid c' items' c'' outs') : Plays P sid c (items ++ items') c'' (outs ++ outs') := by
  obtain ⟨rfl, haudio⟩ := h
  obtain ⟨rfl, haudio'⟩ := h'
  constructor
  · rw [exec_append]
  · rw [List.filterMap_append, haudio, haudio', exec_append]
    simp [spoken]

theorem decode_calm (hc : c.Clean) (hcall : env.Calm) (i : Nat) (ambe : Option AmbeFrame) :
    decode P c (env.calls i) ambe =
      ({ c with vocoder := (P.vocoder.decode c.vocoder ambe).1 }, (P.vocoder.decode c.vocoder ambe).2) := by
  obtain ⟨hbefore, hafter, hpanics⟩ := hcall.calls i
  simp [decode, guarded, Codec.observe, hc.cancelled, hc.poisoned, hbefore, hafter, hpanics]

theorem audio_lostFrame (sid : UInt32) (r : Except VocoderError PcmFrame) :
    (lostFrameOutputs sid r).filterMap audioOf = spoken sid [r] := by
  cases r <;> rfl

theorem audio_frame (sid : UInt32) (elapsed : Duration) (r : Except VocoderError PcmFrame) :
    (frameOutputs sid elapsed r).filterMap audioOf = spoken sid [r] := by
  cases r <;> rfl

theorem plays_decode (hc : c.Clean) (hcalm : env.Calm) (i : Nat) (ambe : Option AmbeFrame) {outs : List Output}
    (houts : outs.filterMap audioOf = spoken sid [(decode P c (env.calls i) ambe).2]) :
    Plays P sid c [.frame ambe] (decode P c (env.calls i) ambe).1 outs := by
  rw [decode_calm hc hcalm] at houts ⊢
  exact ⟨rfl, houts⟩

theorem plays_fillGap (hc : c.Clean) (hcalm : env.Calm) (n i : Nat) :
    Plays P sid c (.replicate n (.frame none)) (fillGap P env sid n c i).1 (fillGap P env sid n c i).2 := by
  induction n generalizing c i with
  | zero => exact .silent rfl
  | succ n ih =>
    have hfirst := plays_decode (P := P) hc hcalm i none (audio_lostFrame sid _)
    exact hfirst.trans (ih (hfirst.clean hc) (i + 1))

theorem plays_decodeFrames (hc : c.Clean) (hcalm : env.Calm) (frames : List AmbeFrame) (i : Nat) :
    Plays P sid c (frames.map (.frame ∘ some)) (decodeFrames P env sid frames c i).1
      (decodeFrames P env sid frames c i).2 := by
  induction frames generalizing c i with
  | nil => exact .silent rfl
  | cons ambe frames ih =>
    have hfirst := plays_decode (P := P) hc hcalm i (some ambe) (audio_frame sid (env.calls i).elapsed _)
    exact hfirst.trans (ih (hfirst.clean hc) (i + 1))

/-- What stands in for `gap` lost bursts. -/
def concealment (gap : Nat) : List Playback := if 3 < gap then [.restart] else .replicate (3 * gap) (.frame none)

theorem plays_voiceAudio (hc : c.Clean) (hcalm : env.Calm) (pkt : Dmrd) (gap : UInt8) :
    Plays P pkt.streamId c (concealment gap.toNat ++ (extractAmbe pkt.dmrData).toList.map (.frame ∘ some))
      (voiceAudio P c env pkt gap).1 (voiceAudio P c env pkt gap).2 := by
  have hroom := hcalm.room
  have hbound : gap > gapBoundaryPackets ↔ 3 < gap.toNat := UInt8.lt_iff_toNat_lt
  unfold voiceAudio concealment
  simp only [hbound, hroom, Bool.false_eq_true, if_false]
  split
  · have hreset : Plays P pkt.streamId c [.restart] (onPttUp P c) [] := by
      refine ⟨?_, rfl⟩
      rw [onPttUp, hc.poisoned]
      rfl
    exact hreset.trans (plays_decodeFrames (hreset.clean hc) hcalm _ 0)
  · have hlost : Plays P pkt.streamId c (.replicate (3 * gap.toNat) (.frame none)) _ _ :=
      plays_fillGap hc hcalm (3 * gap.toNat) 0
    exact hlost.trans (plays_decodeFrames (hlost.clean hc) hcalm _ _)

theorem plays_begin (hc : c.Clean) {outs : List Output} (houts : outs.filterMap audioOf = []) :
    Plays P sid c [.begin] (warmDecoderCache P (onPttUp P c)) outs := by
  refine ⟨?_, houts⟩
  have hup : onPttUp P c = { c with vocoder := P.vocoder.reset c.vocoder } := by
    rw [onPttUp, hc.poisoned]
    rfl
  rw [hup, warmDecoderCache, hc.poisoned]
  rfl

end

/-! ## One packet of a call -/

/-- The receiver's side of `matchesConfig` for what this sender builds. -/
structure Listens (config sender : VoiceConfig) : Prop where
  gateway : config.gateway ≠ .fmToDmr
  slot : sender.slot = config.slot
  callType : sender.callType = config.callType
  dst : sender.talkgroup.asU32 = match config.callType with
    | .group => config.talkgroup.asU32
    | .unit => config.srcId.asU32

theorem Listens.matched {config sender : VoiceConfig} (h : Listens config sender) (seq : UInt8) (sid : UInt32)
    (ft : FrameType) (dtypeVseq : UInt8) (data : Bytes 33) :
    matchesConfig (buildDmrd seq sender sid ft dtypeVseq data) config = true := by
  have hdst := h.dst
  unfold matchesConfig buildDmrd
  cases hcall : config.callType with
  | group | unit =>
    rw [hcall] at hdst
    simp [hdst, h.slot, h.callType, hcall]

/-- In the call `sid`, with burst `previous` the last one heard. -/
def InCall (sid : UInt32) (previous : Option Nat) (s : PttState) : Prop :=
  ∃ call, s = .rx call ∧ call.streamId = sid ∧ call.lastSeq = previous.map fun k => UInt8.ofNat (k + 1)

/-- Between two calls. -/
structure Listening (s : PttState) : Prop where
  isTx : s.isTx = false
  stream : s.rxStream = none

theorem InCall.stream {sid : UInt32} {previous : Option Nat} {s : PttState} (h : InCall sid previous s) :
    s.rxStream = some sid := by
  obtain ⟨call, rfl, rfl, -⟩ := h
  rfl

theorem InCall.isTx {sid : UInt32} {previous : Option Nat} {s : PttState} (h : InCall sid previous s) :
    s.isTx = false := by
  obtain ⟨call, rfl, -⟩ := h
  rfl

theorem seqGap_bursts {j k : Nat} (hlt : j < k) (hgap : k - (j + 1) < 128) :
    (seqGap (UInt8.ofNat (j + 1)) (UInt8.ofNat (k + 1))).toNat = k - (j + 1) := by
  have hdelta : UInt8.ofNat (k + 1) - (UInt8.ofNat (j + 1) + 1) = UInt8.ofNat (k - (j + 1)) := by
    rw [ofNat_succ, UInt8.sub_eq_iff_eq_add, ← UInt8.ofNat_add]
    congr 1
    omega
  have hnat : (UInt8.ofNat (k - (j + 1))).toNat = k - (j + 1) :=
    UInt8.toNat_ofNat_of_lt' (Nat.lt_trans hgap (by decide))
  rw [seqGap_of_lt ?_, hdelta, hnat]
  rw [hdelta, UInt8.lt_iff_toNat_lt, hnat]
  exact hgap

section
variable {P : Params σ φ} {sender : VoiceConfig} {m : Machine σ φ} {sid : UInt32}

theorem onDmrd_of_matched (hlisten : Listens P.config sender) (hm : m.state.isTx = false) (env : Env) (seq : UInt8)
    (dtypeVseq : UInt8) (data : Bytes 33) :
    onDmrd P m env (buildDmrd seq sender sid .dataSync dtypeVseq data) =
      if dtypeVseq = dataTypeVoiceHeader then onHeader P m env (buildDmrd seq sender sid .dataSync dtypeVseq data)
      else if dtypeVseq = dataTypeVoiceTerminator then
        onTerminator P m env (buildDmrd seq sender sid .dataSync dtypeVseq data)
      else (m, []) := by
  unfold onDmrd
  rw [if_neg hlisten.gateway, if_neg (by simp [hlisten.matched]), if_neg (by simp [hm])]
  rfl

theorem audio_emitCallMetadata (P : Params σ φ) (pkt : Dmrd) : (emitCallMetadata P pkt).filterMap audioOf = [] :=
  (emitCallMetadata_silent P pkt).2

theorem hears_header (hlisten : Listens P.config sender) (hm : Listening m.state) (hc : m.codec.Clean) (env : Env)
    {seq : UInt8} {d : Dmrd} (hd : IsControlDmrd sender seq sid dataTypeVoiceHeader d) :
    InCall sid none (onDmrd P m env d).1.state ∧
      Plays P sid m.codec [.begin] (onDmrd P m env d).1.codec (onDmrd P m env d).2 := by
  obtain ⟨lc, -, rfl⟩ := hd
  rw [onDmrd_of_matched hlisten hm.isTx, if_pos rfl, onHeader, if_neg (by rw [hm.stream]; simp)]
  refine ⟨⟨_, rfl, rfl, rfl⟩, plays_begin hc ?_⟩
  rw [List.filterMap_append, audio_emitCallMetadata]
  rfl

/-- Only a call that has been heard ends. -/
theorem hears_terminator (hlisten : Listens P.config sender) {previous : Option Nat} (hm : InCall sid previous m.state)
    (env : Env) {seq : UInt8} {d : Dmrd} (hd : IsControlDmrd sender seq sid dataTypeVoiceTerminator d) :
    Listening (onDmrd P m env d).1.state ∧ (onDmrd P m env d).1.codec = m.codec ∧
      (onDmrd P m env d).2.filterMap audioOf = [makeUnkeyFrame (some sid)] := by
  obtain ⟨lc, -, rfl⟩ := hd
  rw [onDmrd_of_matched hlisten hm.isTx, if_neg (by decide), if_pos rfl, onTerminator]
  simp only [buildDmrd, hm.stream, if_true]
  exact ⟨⟨rfl, rfl⟩, trivial, rfl⟩

theorem ignores_terminator (hlisten : Listens P.config sender) (hm : Listening m.state) (env : Env) {seq : UInt8}
    {d : Dmrd} (hd : IsControlDmrd sender seq sid dataTypeVoiceTerminator d) : onDmrd P m env d = (m, []) := by
  obtain ⟨lc, -, rfl⟩ := hd
  rw [onDmrd_of_matched hlisten hm.isTx, if_neg (by decide), if_pos rfl, onTerminator, if_neg (by rw [hm.stream]; simp)]

theorem isVoice_burstAt (hlisten : Listens P.config sender) (rotation : List Fragments) (sid : UInt32)
    (superframe k : Nat) (ambe : Vector AmbeFrame 3) :
    IsVoice P.config sid (burstAt sender rotation sid superframe k ambe) := by
  refine ⟨hlisten.matched .., rfl, ?_⟩
  unfold burstAt buildDmrd
  dsimp only
  split <;> simp

/-- What a burst plays, `gap` bursts after the one before. -/
def burstPlayback (gap : Nat) (ambe : Vector AmbeFrame 3) : List Playback :=
  concealment gap ++ ambe.toList.map (.frame ∘ some)

theorem plays_burst {c : Codec σ φ} (hc : c.Clean) {env : Env} (hcalm : env.Calm) (rotation : List Fragments)
    (superframe k : Nat) (ambe : Vector AmbeFrame 3) (gap : UInt8) :
    Plays P sid c (burstPlayback gap.toNat ambe)
      (voiceAudio P c env (burstAt sender rotation sid superframe k ambe) gap).1
      (voiceAudio P c env (burstAt sender rotation sid superframe k ambe) gap).2 := by
  have hplays := plays_voiceAudio (P := P) hc hcalm (burstAt sender rotation sid superframe k ambe) gap
  rwa [burstAt, buildDmrd, extractAmbe_assembleBurst] at hplays

/-- A burst of the call that the receiver is in. -/
theorem hears_burst (hlisten : Listens P.config sender) {previous : Option Nat} (hm : InCall sid previous m.state)
    (hc : m.codec.Clean) {env : Env} (hcalm : env.Calm) (rotation : List Fragments) (superframe : Nat) {k : Nat}
    (hnext : ∀ j ∈ previous, j < k ∧ k - (j + 1) < 128) (ambe : Vector AmbeFrame 3) :
    InCall sid (some k) (onDmrd P m env (burstAt sender rotation sid superframe k ambe)).1.state ∧
      Plays P sid m.codec (burstPlayback (previous.elim 0 fun j => k - (j + 1)) ambe)
        (onDmrd P m env (burstAt sender rotation sid superframe k ambe)).1.codec
        (onDmrd P m env (burstAt sender rotation sid superframe k ambe)).2 := by
  obtain ⟨call, hs, hsid, hlast⟩ := hm
  have hgap : (call.lastSeq.elim 0 (seqGap · (UInt8.ofNat (k + 1)))).toNat = previous.elim 0 fun j => k - (j + 1) := by
    rw [hlast]
    cases previous with
    | none => rfl
    | some j =>
      obtain ⟨hlt, hfew⟩ := hnext j rfl
      exact seqGap_bursts hlt hfew
  have henter := @enterVoice_same call (burstAt sender rotation sid superframe k ambe) hsid env.now
  rw [onDmrd_voice env hlisten.gateway (by rw [hs]; rfl) (isVoice_burstAt hlisten rotation sid superframe k ambe),
    onVoice, hs, henter]
  have hburst (gap : UInt8) : Plays P sid m.codec (burstPlayback gap.toNat ambe)
      (voiceAudio P m.codec env (burstAt sender rotation sid superframe k ambe) gap).1
      (voiceAudio P m.codec env (burstAt sender rotation sid superframe k ambe) gap).2 :=
    plays_burst hc hcalm rotation superframe k ambe gap
  have hplays := hburst (call.lastSeq.elim 0 (seqGap · (UInt8.ofNat (k + 1))))
  rw [hgap] at hplays
  refine ⟨⟨_, rfl, hsid, rfl⟩, ?_⟩
  have hboundary := boundaryOutputs_audio P (burstAt sender rotation sid superframe k ambe) (enterVoice (.rx call)
    (burstAt sender rotation sid superframe k ambe) env.now)
  rw [henter] at hboundary
  exact (Plays.silent hboundary).trans hplays

/-- A burst that is the first to be heard of its call. -/
theorem hears_first (hlisten : Listens P.config sender) (hm : Listening m.state) (hc : m.codec.Clean) {env : Env}
    (hcalm : env.Calm) (rotation : List Fragments) (superframe k : Nat) (ambe : Vector AmbeFrame 3) :
    InCall sid (some k) (onDmrd P m env (burstAt sender rotation sid superframe k ambe)).1.state ∧
      Plays P sid m.codec (.begin :: burstPlayback 0 ambe)
        (onDmrd P m env (burstAt sender rotation sid superframe k ambe)).1.codec
        (onDmrd P m env (burstAt sender rotation sid superframe k ambe)).2 := by
  have henter := @enterVoice_new m.state (burstAt sender rotation sid superframe k ambe)
    (by rw [hm.stream]; simp) env.now
  rw [hm.stream] at henter
  rw [onDmrd_voice env hlisten.gateway hm.isTx (isVoice_burstAt hlisten rotation sid superframe k ambe), onVoice,
    henter]
  refine ⟨⟨_, rfl, rfl, rfl⟩, ?_⟩
  have hboundary := boundaryOutputs_audio P (burstAt sender rotation sid superframe k ambe)
    (enterVoice m.state (burstAt sender rotation sid superframe k ambe) env.now)
  rw [henter] at hboundary
  have hbegin : Plays P sid m.codec [.begin] _ _ := plays_begin hc hboundary
  exact hbegin.trans (plays_burst (hbegin.clean hc) hcalm rotation superframe k ambe 0)

end

/-! ## One call over the network -/

/-- What arrives of a call: its header or not, and bursts by their place in it. A terminator always arrives. -/
structure Delivery where
  header : Bool
  bursts : List Nat
  deriving DecidableEq

namespace Delivery

/-- In order, each burst once, and no more than 127 lost in a row. -/
structure Of (d : Delivery) (call : TxLog) : Prop where
  inOrder : d.bursts.IsChain fun j k => j < k ∧ k - (j + 1) < 128
  sent : ∀ k ∈ d.bursts, k < call.bursts.length

def packets (d : Delivery) (call : TxLog) : List DmrdPacket :=
  (if d.header then call.packets.take 1 else []) ++ d.bursts.filterMap (fun k => call.packets[k + 1]?) ++
    call.packets.drop (call.bursts.length + 1)

/-- Nothing but the terminator arrives of it. -/
def silent (d : Delivery) : Bool := !d.header && d.bursts.isEmpty

/-- What the bursts play, after `previous`. -/
def burstsPlayback (call : TxLog) : Option Nat → List Nat → List Playback
  | _, [] => []
  | previous, k :: ks =>
    (call.bursts[k]?.elim [] (burstPlayback (previous.elim 0 fun j => k - (j + 1)))) ++ burstsPlayback call (some k) ks

def playback (d : Delivery) (call : TxLog) : List Playback :=
  if d.silent then [] else .begin :: burstsPlayback call none d.bursts

/-- What FM hears, from a decoder in state `v`. -/
def audio (V : Vocoder σ) (v : σ) (d : Delivery) (call : TxLog) : List AudioFrame :=
  spoken call.streamId (exec V.play v (d.playback call)).2 ++
    if d.silent ∨ ¬ call.ended then [] else [makeUnkeyFrame (some call.streamId)]

end Delivery

/-- A packet of the network at the receiver. -/
def receive (P : Params σ φ) (m : Machine σ φ) (a : Env × Dmrd) : Machine σ φ × List Output := turn P m (a.1, .dmrd a.2)

section
variable {P : Params σ φ} {sender : VoiceConfig} {m : Machine σ φ} {rotation : List Fragments} {superframe : Nat → Nat}
  {call : TxLog}

/-- Burst `k` of the call as it is on the network. -/
def sentBurst (sender : VoiceConfig) (rotation : List Fragments) (superframe : Nat → Nat) (call : TxLog) (k : Nat) :
    Option Dmrd :=
  call.bursts[k]?.map (burstAt sender rotation call.streamId (superframe k) k)

theorem hears_bursts (hlisten : Listens P.config sender) {previous : Option Nat}
    (hm : InCall call.streamId previous m.state) (hc : m.codec.Clean) (ks : List Nat)
    (horder : (previous.toList ++ ks).IsChain fun j k => j < k ∧ k - (j + 1) < 128)
    (hsent : ∀ k ∈ ks, k < call.bursts.length) (arrivals : List (Env × Dmrd)) (hcalm : ∀ a ∈ arrivals, a.1.Calm)
    (hpkts : arrivals.map (·.2) = ks.filterMap (sentBurst sender rotation superframe call)) :
    (∃ last, InCall call.streamId last (exec (receive P) m arrivals).1.state) ∧
      Plays P call.streamId m.codec (Delivery.burstsPlayback call previous ks) (exec (receive P) m arrivals).1.codec
        (exec (receive P) m arrivals).2 := by
  induction ks generalizing m previous arrivals with
  | nil =>
    rw [List.filterMap_nil, List.map_eq_nil_iff] at hpkts
    subst hpkts
    exact ⟨⟨previous, hm⟩, .silent rfl⟩
  | cons k ks ih =>
    have hk := hsent k List.mem_cons_self
    have hburst : call.bursts[k]? = some call.bursts[k] := List.getElem?_eq_getElem hk
    rw [List.filterMap_cons, sentBurst, hburst, Option.map_some] at hpkts
    obtain ⟨⟨env, pkt⟩, rest, rfl, rfl, hrest⟩ := List.map_eq_cons_iff.mp hpkts
    have hnext : ∀ j ∈ previous, j < k ∧ k - (j + 1) < 128 := by
      rintro j rfl
      exact (List.isChain_cons_cons.mp horder).1
    obtain ⟨hin, hplays⟩ := hears_burst hlisten hm hc (hcalm _ List.mem_cons_self) rotation (superframe k) hnext
      call.bursts[k]
    have htail : ((some k).toList ++ ks).IsChain fun j k => j < k ∧ k - (j + 1) < 128 := by
      cases previous with
      | none => exact horder
      | some j => exact horder.tail
    obtain ⟨hlast, hothers⟩ := ih hin (hplays.clean hc) htail (fun i hi => hsent i (List.mem_cons_of_mem k hi)) rest
      (fun a ha => hcalm a (List.mem_cons_of_mem _ ha)) hrest
    refine ⟨hlast, ?_⟩
    rw [Delivery.burstsPlayback, hburst]
    exact hplays.trans hothers

/-- The packets of a delivery, as the receiver parses them. -/
theorem Delivery.arrivals (hformat : Format sender rotation superframe call) {d : Delivery} (hd : d.Of call) :
    ∃ (hdr : Dmrd) (term : Option Dmrd), IsControlDmrd sender 0 call.streamId dataTypeVoiceHeader hdr ∧
      term.isSome = call.ended ∧
      (∀ t ∈ term,
        IsControlDmrd sender (UInt8.ofNat (call.bursts.length + 1)) call.streamId dataTypeVoiceTerminator t) ∧
      (d.packets call).filterMap dmrdOf = (if d.header then [hdr] else []) ++
        d.bursts.filterMap (sentBurst sender rotation superframe call) ++ term.toList := by
  obtain ⟨first, mid, last, hpackets, ⟨hdr, hfirst, hhdr⟩, hmid, hlast⟩ := hformat.packets
  have hlength : mid.length = call.bursts.length := by
    have hmapped := congrArg List.length hmid
    simpa using hmapped
  have hheader : (if d.header then call.packets.take 1 else []).filterMap dmrdOf = if d.header then [hdr] else [] := by
    rw [hpackets]
    split
    · simp [hfirst]
    · rfl
  have hbursts : (d.bursts.filterMap fun k => call.packets[k + 1]?).filterMap dmrdOf =
      d.bursts.filterMap (sentBurst sender rotation superframe call) := by
    rw [List.filterMap_filterMap]
    apply List.filterMap_congr
    intro k hk
    have hlt : k < mid.length := hlength ▸ hd.sent k hk
    have hat := congrArg (fun l : List (Option Dmrd) => l[k]?) hmid
    rw [hpackets, List.cons_append, List.getElem?_cons_succ, List.getElem?_append_left hlt, sentBurst]
    simp only [List.getElem?_map, List.getElem?_mapIdx] at hat
    cases hpkt : mid[k]? with
    | none =>
      rw [List.getElem?_eq_none_iff] at hpkt
      exact absurd hlt (Nat.not_lt.mpr hpkt)
    | some pkt =>
      rw [hpkt] at hat
      obtain ⟨ambe, hambe, hsame⟩ := Option.map_eq_some_iff.mp hat.symm
      rw [hambe, Option.bind_some, ← hsame]
      rfl
  have hrest : call.packets.drop (call.bursts.length + 1) = last := by
    rw [hpackets, ← hlength, List.cons_append, List.drop_succ_cons, List.drop_left]
  have hterm : ∃ term : Option Dmrd, last.filterMap dmrdOf = term.toList ∧ term.isSome = call.ended ∧
      ∀ t ∈ term,
        IsControlDmrd sender (UInt8.ofNat (call.bursts.length + 1)) call.streamId dataTypeVoiceTerminator t := by
    cases hended : call.ended with
    | true =>
      rw [hended] at hlast
      obtain ⟨pkt, t, rfl, hpkt, ht⟩ := hlast
      refine ⟨some t, by simp [hpkt], rfl, ?_⟩
      rintro t' ⟨⟩
      exact ht
    | false =>
      rw [hended] at hlast
      subst hlast
      exact ⟨none, rfl, rfl, by simp⟩
  obtain ⟨term, hterm, hsome, hcontrol⟩ := hterm
  refine ⟨hdr, term, hhdr, hsome, hcontrol, ?_⟩
  rw [Delivery.packets, List.filterMap_append, List.filterMap_append, hheader, hbursts, hrest, hterm]

theorem hears_opening (hlisten : Listens P.config sender) (hm : Listening m.state) (hc : m.codec.Clean) {hdr : Dmrd}
    (hhdr : IsControlDmrd sender 0 call.streamId dataTypeVoiceHeader hdr) {d : Delivery} (hd : d.Of call)
    (hheard : d.silent = false) (arrivals : List (Env × Dmrd)) (hcalm : ∀ a ∈ arrivals, a.1.Calm)
    (hpkts : arrivals.map (·.2) =
      (if d.header then [hdr] else []) ++ d.bursts.filterMap (sentBurst sender rotation superframe call)) :
    (∃ last, InCall call.streamId last (exec (receive P) m arrivals).1.state) ∧
      Plays P call.streamId m.codec (d.playback call) (exec (receive P) m arrivals).1.codec
        (exec (receive P) m arrivals).2 := by
  rw [Delivery.playback, if_neg (by simp [hheard])]
  cases hheader : d.header with
  | true =>
    simp only [hheader, if_true, List.singleton_append] at hpkts
    obtain ⟨⟨env, pkt⟩, rest, rfl, rfl, hrest⟩ := List.map_eq_cons_iff.mp hpkts
    obtain ⟨hin, hplays⟩ := hears_header hlisten hm hc env hhdr
    obtain ⟨hlast, hothers⟩ := hears_bursts hlisten hin (hplays.clean hc) d.bursts hd.inOrder hd.sent rest
      (fun a ha => hcalm a (List.mem_cons_of_mem _ ha)) hrest
    exact ⟨hlast, hplays.trans hothers⟩
  | false =>
    simp only [hheader, Bool.false_eq_true, if_false, List.nil_append] at hpkts
    have horder := hd.inOrder
    have hsent := hd.sent
    cases hbursts : d.bursts with
    | nil => simp [Delivery.silent, hheader, hbursts] at hheard
    | cons k ks =>
      rw [hbursts] at hpkts horder hsent
      have hk := hsent k List.mem_cons_self
      have hburst : call.bursts[k]? = some call.bursts[k] := List.getElem?_eq_getElem hk
      rw [List.filterMap_cons, sentBurst, hburst, Option.map_some] at hpkts
      obtain ⟨⟨env, pkt⟩, rest, rfl, rfl, hrest⟩ := List.map_eq_cons_iff.mp hpkts
      obtain ⟨hin, hplays⟩ := hears_first hlisten hm hc (hcalm _ List.mem_cons_self) rotation (superframe k) k
        call.bursts[k]
      obtain ⟨hlast, hothers⟩ := hears_bursts hlisten hin (hplays.clean hc) ks horder
        (fun j hj => hsent j (List.mem_cons_of_mem k hj)) rest (fun a ha => hcalm a (List.mem_cons_of_mem _ ha)) hrest
      refine ⟨hlast, ?_⟩
      rw [Delivery.burstsPlayback, hburst]
      exact hplays.trans hothers

/-- The whole of a call, from one state in which the receiver listens to the next. -/
theorem hears_call (hlisten : Listens P.config sender) (hm : Listening m.state) (hc : m.codec.Clean)
    (hformat : Format sender rotation superframe call) {d : Delivery} (hd : d.Of call) (arrivals : List (Env × Dmrd))
    (hcalm : ∀ a ∈ arrivals, a.1.Calm) (hpkts : arrivals.map (·.2) = (d.packets call).filterMap dmrdOf) :
    (call.ended = true → Listening (exec (receive P) m arrivals).1.state) ∧
      (exec (receive P) m arrivals).1.codec =
        { m.codec with vocoder := (exec P.vocoder.play m.codec.vocoder (d.playback call)).1 } ∧
      (exec (receive P) m arrivals).2.filterMap audioOf = d.audio P.vocoder m.codec.vocoder call := by
  obtain ⟨hdr, term, hhdr, hsome, hterm, harrivals⟩ := Delivery.arrivals hformat hd
  rw [harrivals] at hpkts
  obtain ⟨before, after, rfl, hbefore, hafter⟩ := List.map_eq_append_iff.mp hpkts
  have hcalmBefore : ∀ a ∈ before, a.1.Calm := fun a ha => hcalm a (List.mem_append_left _ ha)
  rw [exec_append]
  cases hheard : d.silent with
  | true =>
    obtain ⟨hheader, hbursts⟩ : d.header = false ∧ d.bursts = [] := by simpa [Delivery.silent] using hheard
    obtain rfl : before = [] := by simpa [hheader, hbursts] using hbefore
    have hquiet : exec (receive P) m after = (m, []) := by
      cases term with
      | none =>
        obtain rfl : after = [] := by simpa using hafter
        rfl
      | some t =>
        obtain ⟨⟨env, pkt⟩, rest, rfl, rfl, hrest⟩ := List.map_eq_cons_iff.mp hafter
        obtain rfl : rest = [] := by simpa using hrest
        exact congrArg (fun r : Machine σ φ × List Output => (r.1, r.2 ++ []))
          (ignores_terminator hlisten hm env (hterm _ rfl))
    simp only [exec_nil, List.nil_append, hquiet, Delivery.playback, Delivery.audio, hheard, if_true, true_or]
    exact ⟨fun _ => hm, trivial, rfl⟩
  | false =>
    obtain ⟨⟨last, hin⟩, hplays⟩ := hears_opening hlisten hm hc hhdr hd hheard before hcalmBefore hbefore
    cases term with
    | none =>
      obtain rfl : after = [] := by simpa using hafter
      have hopen : call.ended = false := hsome.symm
      simp only [exec_nil, List.append_nil, hopen]
      refine ⟨by simp, hplays.codec, ?_⟩
      rw [hplays.audio, Delivery.audio]
      simp [hopen]
    | some t =>
      obtain ⟨⟨env, pkt⟩, rest, rfl, rfl, hrest⟩ := List.map_eq_cons_iff.mp hafter
      obtain rfl : rest = [] := by simpa using hrest
      have hended : call.ended = true := hsome.symm
      obtain ⟨hlistening, hsame, hunkey⟩ := hears_terminator hlisten hin env (hterm _ rfl)
      have hlast : exec (receive P) (exec (receive P) m before).1 [(env, pkt)] =
          onDmrd P (exec (receive P) m before).1 env pkt := by
        simp [exec, receive, turn, handle]
      rw [hlast, List.filterMap_append, hplays.audio, hunkey, Delivery.audio, if_neg (by simp [hheard, hended])]
      exact ⟨fun _ => hlistening, hsame.trans hplays.codec, rfl⟩

end

end DmrBridge
