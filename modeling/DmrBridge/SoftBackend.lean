import DmrBridge.AmbeServer
import DmrBridge.Lib.Run

/-!
# The software AMBEserver

`SoftBackend` answers DV3000 requests from an in-process vocoder. Against it the client is the
inner vocoder again, but for lost frames.
-/

open Run DmrBridge.Dv3000

namespace DmrBridge

variable {σ : Type}

def ackOk : UInt8 := 0x00
def ackReject : UInt8 := 0x01

/-- `poisoned` after a RATEP other than DMR, until the next RESET. -/
structure SoftBackend (σ : Type) where
  vocoder : σ
  prodid : List UInt8
  ratepAcked : Bool
  poisoned : Bool

namespace SoftBackend

/-- `backend_label` as its UTF-8 bytes. -/
def new (vocoder : σ) (backendLabel : List UInt8) : SoftBackend σ where
  vocoder
  prodid := [0x41, 0x4D, 0x42, 0x45, 0x33, 0x30, 0x30, 0x30, 0x52, 0x20, 0x2F, 0x20] ++ backendLabel ++ [0]
  ratepAcked := false
  poisoned := false

def handleReset (V : Vocoder σ) (b : SoftBackend σ) : SoftBackend σ :=
  { b with ratepAcked := false, poisoned := false, vocoder := V.reset b.vocoder }

def handleGain (V : Vocoder σ) (b : SoftBackend σ) :
    List UInt8 → SoftBackend σ × Except VocoderError (Option (List UInt8))
  | inDb :: outDb :: _ =>
    match V.setGain b.vocoder inDb.toInt8.toInt outDb.toInt8.toInt with
    | (v, .ok ()) => ({ b with vocoder := v }, .ok (some (buildControlAck controlGain ackOk)))
    | (v, .error e) => ({ b with vocoder := v }, .error e)
  | _ => (b, .ok none)

def handlePacket (V : Vocoder σ) (b : SoftBackend σ) :
    Packet → SoftBackend σ × Except VocoderError (Option (List UInt8))
  | .control fieldId data =>
    if fieldId = controlRatep then
      if data = ratepDmr then ({ b with ratepAcked := true }, .ok (some (buildControlAck controlRatep ackOk)))
      else ({ b with poisoned := true }, .ok (some (buildControlAck controlRatep ackReject)))
    else if fieldId = controlGain then handleGain V b data
    else if fieldId = controlProdid then (b, .ok (some (buildProdidResponse b.prodid)))
    else (b, .ok none)
  | .audio pcm =>
    if b.ratepAcked = false then (b, .ok none)
    else
      match V.encode b.vocoder pcm with
      | (v, .ok ambe) => ({ b with vocoder := v }, .ok (some (buildAmbe ambe)))
      | (v, .error e) => ({ b with vocoder := v }, .error e)
  | .ambe frame =>
    if b.ratepAcked = false then (b, .ok none)
    else
      match V.decode b.vocoder (some frame) with
      | (v, .ok pcm) => ({ b with vocoder := v }, .ok (some (buildAudio pcm)))
      | (v, .error e) => ({ b with vocoder := v }, .error e)
  | .ambeBits _ _ => (b, .ok none)

/-- RESET is honoured on a poisoned session too. -/
def handle (V : Vocoder σ) (b : SoftBackend σ) (request : List UInt8) :
    SoftBackend σ × Except VocoderError (Option (List UInt8)) :=
  match parse request with
  | .error _ => (b, .ok none)
  | .ok (packet, _) =>
    match packet with
    | .control fieldId data =>
      if fieldId = controlReset then (handleReset V b, .ok (some buildReady))
      else if b.poisoned then (b, .ok none)
      else handlePacket V b (.control fieldId data)
    | packet => if b.poisoned then (b, .ok none) else handlePacket V b packet

/-- Another peer starts from scratch, as after a RESET. -/
def onTakeover (V : Vocoder σ) (b : SoftBackend σ) : SoftBackend σ :=
  { b with vocoder := V.reset b.vocoder, ratepAcked := false, poisoned := false }

/-- A link that loses nothing. Without an answer the client's `recv` times out. -/
def link (V : Vocoder σ) : SendRecv (SoftBackend σ) := fun b request =>
  match handle V b request with
  | (b, .ok (some reply)) => (b, recvPacket reply)
  | (b, _) => (b, .error .io)

/-! ## One request -/

theorem handle_of_parse {V : Vocoder σ} {b : SoftBackend σ} {request : List UInt8} {packet : Packet} {n : Nat}
    (h : parse request = .ok (packet, n)) (hreset : ∀ data, packet ≠ .control controlReset data)
    (hpoison : b.poisoned = false) : handle V b request = handlePacket V b packet := by
  rw [handle, h]
  cases packet with
  | control fieldId data =>
    have hfield : fieldId ≠ controlReset := fun he => hreset data (by rw [he])
    simp only [hfield, if_false, hpoison, Bool.false_eq_true]
  | _ => simp only [hpoison, Bool.false_eq_true, if_false]

theorem handle_of_error {V : Vocoder σ} {b : SoftBackend σ} {request : List UInt8} {e : ParseError}
    (h : parse request = .error e) : handle V b request = (b, .ok none) := by
  rw [handle, h]

theorem handle_of_reset {V : Vocoder σ} {b : SoftBackend σ} {request data : List UInt8} {n : Nat}
    (h : parse request = .ok (.control controlReset data, n)) :
    handle V b request = (handleReset V b, .ok (some buildReady)) := by
  rw [handle, h]
  exact if_pos rfl

theorem handle_of_poisoned {V : Vocoder σ} {b : SoftBackend σ} {request : List UInt8} {packet : Packet} {n : Nat}
    (h : parse request = .ok (packet, n)) (hreset : ∀ data, packet ≠ .control controlReset data)
    (hpoison : b.poisoned = true) : handle V b request = (b, .ok none) := by
  rw [handle, h]
  cases packet with
  | control fieldId data =>
    have hfield : fieldId ≠ controlReset := fun he => hreset data (by rw [he])
    simp only [hfield, if_false, hpoison, if_true]
  | _ => simp only [hpoison, if_true]

theorem link_reset (V : Vocoder σ) (b : SoftBackend σ) :
    link V b buildReset = (handleReset V b, .ok (.control controlReady [])) := by
  obtain ⟨n, hn⟩ := parse_control controlReset [] (by decide)
  obtain ⟨k, hk⟩ := parse_control controlReady [] (by decide)
  rw [link, buildReset, handle_of_reset hn]
  exact Prod.ext rfl (recvPacket_of_parse (by decide) hk)

theorem link_ratepDmr (V : Vocoder σ) (b : SoftBackend σ) (h : b.poisoned = false) :
    link V b buildRatepDmr = ({ b with ratepAcked := true }, .ok (.control controlRatep [0])) := by
  obtain ⟨n, hn⟩ := parse_control controlRatep ratepDmr (by decide)
  obtain ⟨k, hk⟩ := parse_control controlRatep [0] (by decide)
  have hhandle : handle V b buildRatepDmr =
      ({ b with ratepAcked := true }, .ok (some (buildControlAck controlRatep ackOk))) := by
    rw [buildRatepDmr, buildRatepCustom, handle_of_parse hn (fun data he => by cases he) h]
    rfl
  rw [link, hhandle]
  exact Prod.ext rfl (recvPacket_of_parse (by decide) hk)

/-- The inner vocoder is in state `v` and voice traffic passes. -/
structure Ready (b : SoftBackend σ) (v : σ) : Prop where
  vocoder : b.vocoder = v
  acked : b.ratepAcked = true
  clean : b.poisoned = false

theorem init_ready (V : Vocoder σ) (b : SoftBackend σ) :
    (AmbeServer.init (link V) b).2 = .ok () ∧ Ready (AmbeServer.init (link V) b).1 (V.reset b.vocoder) := by
  have hinit : AmbeServer.init (link V) b = ({ handleReset V b with ratepAcked := true }, .ok ()) := by
    rw [AmbeServer.init, link_reset]
    simp only [isReady, decide_true, Bool.true_eq_false, if_false]
    rw [link_ratepDmr V _ rfl]
    rfl
  rw [hinit]
  exact ⟨rfl, rfl, rfl, rfl⟩

theorem encode_ready (V : Vocoder σ) {b : SoftBackend σ} {v : σ} (h : Ready b v) (pcm : PcmFrame) :
    Ready (AmbeServer.encode (link V) b pcm).1 (V.encode v pcm).1 ∧
      (AmbeServer.encode (link V) b pcm).2.toOption = (V.encode v pcm).2.toOption := by
  obtain ⟨rfl, hacked, hclean⟩ := h
  obtain ⟨n, hn⟩ := parse_buildAudio pcm
  rw [AmbeServer.encode, link, handle_of_parse hn (fun data he => by cases he) hclean, handlePacket, hacked,
    if_neg (by decide)]
  rcases hv : V.encode b.vocoder pcm with ⟨v, e | ambe⟩
  · exact ⟨⟨rfl, rfl, hclean⟩, rfl⟩
  · obtain ⟨k, hk⟩ := parse_buildAmbe ambe
    simp only [recvPacket_of_parse (by rw [length_buildAmbe]; decide) hk]
    exact ⟨⟨rfl, rfl, hclean⟩, trivial⟩

/-- What the server makes of a decode request: a lost frame is a frame of zeros. -/
def received : Option AmbeFrame → AmbeFrame
  | some ambe => ambe
  | none => .replicate 9 0

theorem parse_decodeRequest (ambe : Option AmbeFrame) :
    ∃ n, parse (AmbeServer.decodeRequest ambe) = .ok (.ambe (received ambe), n) := by
  cases ambe with
  | some ambe => exact parse_buildAmbe ambe
  | none => exact parse_buildAmbeLostFrame

theorem decode_ready (V : Vocoder σ) {b : SoftBackend σ} {v : σ} (h : Ready b v) (ambe : Option AmbeFrame) :
    Ready (AmbeServer.decode (link V) b ambe).1 (V.decode v (some (received ambe))).1 ∧
      (AmbeServer.decode (link V) b ambe).2.toOption = (V.decode v (some (received ambe))).2.toOption := by
  obtain ⟨rfl, hacked, hclean⟩ := h
  obtain ⟨n, hn⟩ := parse_decodeRequest ambe
  rw [AmbeServer.decode, link, handle_of_parse hn (fun data he => by cases he) hclean, handlePacket, hacked,
    if_neg (by decide)]
  rcases hv : V.decode b.vocoder (some (received ambe)) with ⟨v, e | pcm⟩
  · exact ⟨⟨rfl, rfl, hclean⟩, rfl⟩
  · obtain ⟨k, hk⟩ := parse_buildAudio pcm
    simp only [recvPacket_of_parse (by rw [length_buildAudio]; decide) hk]
    exact ⟨⟨rfl, rfl, hclean⟩, trivial⟩

/-! ## Whole sequences -/

def forwarded : VocoderCall → VocoderCall
  | .encode pcm => .encode pcm
  | .decode ambe => .decode (some (received ambe))

theorem call_ready (V : Vocoder σ) (b : SoftBackend σ) (v : σ) (c : VocoderCall) (h : Ready b v) :
    Ready ((AmbeServer.client (link V)).call b c).1 (V.call v (forwarded c)).1 ∧
      List.Forall₂ VocoderResult.Agrees ((AmbeServer.client (link V)).call b c).2 (V.call v (forwarded c)).2 := by
  cases c with
  | encode pcm =>
    obtain ⟨hready, hresult⟩ := encode_ready V h pcm
    exact ⟨hready, .cons (congrArg Sum.inl hresult) .nil⟩
  | decode ambe =>
    obtain ⟨hready, hresult⟩ := decode_ready V h ambe
    exact ⟨hready, .cons (congrArg Sum.inr hresult) .nil⟩

/-- A run of the client is a run of the inner vocoder on the forwarded calls. -/
theorem client_simulates (V : Vocoder σ) (b : SoftBackend σ) (calls : List VocoderCall) :
    Ready (exec (AmbeServer.client (link V)).call (AmbeServer.init (link V) b).1 calls).1
        (exec V.call (V.reset b.vocoder) (calls.map forwarded)).1 ∧
      List.Forall₂ VocoderResult.Agrees
        (exec (AmbeServer.client (link V)).call (AmbeServer.init (link V) b).1 calls).2
        (exec V.call (V.reset b.vocoder) (calls.map forwarded)).2 :=
  exec_simulation (call_ready V) (init_ready V b).2 calls

/-- The server before it sees the client, with an empty log of the calls that reach its vocoder. -/
def withLog (b : SoftBackend σ) : SoftBackend (σ × List VocoderCall) :=
  ⟨(b.vocoder, []), b.prodid, b.ratepAcked, b.poisoned⟩

def session (V : Vocoder σ) (b : SoftBackend σ) (calls : List VocoderCall) :
    SoftBackend (σ × List VocoderCall) × List VocoderResult :=
  exec (AmbeServer.client (link V.logged)).call (AmbeServer.init (link V.logged) b.withLog).1 calls

/-- The client connects, its results are those of the inner vocoder, and its calls are what reaches it. -/
structure Faithful (V : Vocoder σ) (b : SoftBackend σ) (calls : List VocoderCall) : Prop where
  connects : (AmbeServer.init (link V.logged) b.withLog).2 = .ok ()
  results : List.Forall₂ VocoderResult.Agrees (session V b calls).2 (exec V.call (V.reset b.vocoder) calls).2
  reached : (session V b calls).1.vocoder.2 = calls

theorem exec_logged (V : Vocoder σ) (v : σ) (log calls : List VocoderCall) :
    exec V.logged.call (v, log) calls = (((exec V.call v calls).1, log ++ calls), (exec V.call v calls).2) := by
  induction calls generalizing v log with
  | nil => simp
  | cons c calls ih => simp [exec, ih]

theorem session_spec (V : Vocoder σ) (b : SoftBackend σ) (calls : List VocoderCall) :
    (session V b calls).1.vocoder.2 = calls.map forwarded ∧
      List.Forall₂ VocoderResult.Agrees (session V b calls).2
        (exec V.call (V.reset b.vocoder) (calls.map forwarded)).2 := by
  obtain ⟨hready, hresults⟩ := client_simulates V.logged b.withLog calls
  have hlog : V.logged.reset b.withLog.vocoder = (V.reset b.vocoder, []) := rfl
  rw [hlog, exec_logged] at hready hresults
  exact ⟨by rw [session, hready.vocoder, List.nil_append], hresults⟩

theorem forwarded_eq_self (c : VocoderCall) : forwarded c = c ↔ c ≠ .decode none := by
  rcases c with pcm | ambe
  · simp [forwarded]
  · cases ambe <;> simp [forwarded, received]

theorem map_forwarded_eq_self (calls : List VocoderCall) :
    calls.map forwarded = calls ↔ VocoderCall.decode none ∉ calls := by
  induction calls with
  | nil => simp
  | cons c calls ih =>
    rw [List.map_cons, List.cons.injEq, ih, forwarded_eq_self, List.mem_cons, not_or, ne_comm]

/-- The client stands for the inner vocoder on exactly the sequences without a lost frame. -/
theorem faithful_iff (V : Vocoder σ) (b : SoftBackend σ) (calls : List VocoderCall) :
    Faithful V b calls ↔ VocoderCall.decode none ∉ calls := by
  obtain ⟨hreached, hresults⟩ := session_spec V b calls
  rw [← map_forwarded_eq_self]
  constructor
  · intro h
    rw [← hreached, h.reached]
  · intro h
    rw [h] at hreached hresults
    exact ⟨(init_ready V.logged b.withLog).1, hresults, hreached⟩

/-- Repeats its last frame for a lost one; a frame decodes to its first byte. -/
def repeatVocoder : Vocoder Int16 where
  encode s _ := (s, .ok (.replicate 9 0))
  decode s
    | some ambe => ((ambe.get 0).toUInt16.toInt16, .ok (.replicate 160 (ambe.get 0).toUInt16.toInt16))
    | none => (s, .ok (.replicate 160 s))
  reset _ := 0
  warmCache := id
  setGain s _ _ := (s, .ok ())

/-- The repeat of a frame comes back as silence. -/
theorem not_faithful_lostFrame :
    ¬ List.Forall₂ VocoderResult.Agrees
        (session repeatVocoder (new 0 []) [.decode (some (.replicate 9 7)), .decode none]).2
        (exec repeatVocoder.call 0 [.decode (some (.replicate 9 7)), .decode none]).2 ∧
      ¬ Faithful repeatVocoder (new 0 []) [.decode (some (.replicate 9 7)), .decode none] := by
  have hresults : ¬ List.Forall₂ VocoderResult.Agrees
      (session repeatVocoder (new 0 []) [.decode (some (.replicate 9 7)), .decode none]).2
      (exec repeatVocoder.call 0 [.decode (some (.replicate 9 7)), .decode none]).2 := by
    intro h
    have hsession := (session_spec repeatVocoder (new 0 []) [.decode (some (.replicate 9 7)), .decode none]).2
    revert h hsession
    generalize (session repeatVocoder (new 0 []) [.decode (some (.replicate 9 7)), .decode none]).2 = results
    intro h hsession
    rcases h with _ | ⟨_, _ | ⟨hdirect, _⟩⟩
    rcases hsession with _ | ⟨_, _ | ⟨hremote, _⟩⟩
    exact absurd (hremote.symm.trans hdirect) (by decide +kernel)
  exact ⟨hresults, fun h => hresults h.results⟩

end SoftBackend

end DmrBridge
