import DmrBridge.ThumbDv
import DmrBridge.UdpDv

/-!
# A chip on another machine

The AMBEserver client over UDP, the relay of `ambeserver` and the chip on its port. Replies wait in two
places, on the network and on the port, and are one queue all the same.
-/

open Run DmrBridge.Dv3000

namespace DmrBridge

namespace Relay

variable {τ : Type} (answer : τ → List UInt8 → τ × List UInt8)

/-- `ThumbDvBackend::handle`. An error is logged, and the client hears nothing. -/
def handle (p : SerialPort τ) (request : List UInt8) : SerialPort τ × Option (List UInt8) :=
  match p.sendRaw answer request with
  | (q, .error _) => (q.next, none)
  | (q, .ok ()) =>
    match q.readExact headerSize (p.timing 0).header with
    | (q, none) => (q.next, none)
    | (q, some header) =>
      if header.getD 0 0 ≠ startByte then (q.next, none)
      else
        match q.readExact (payloadLen header) (p.timing 0).payload with
        | (q, none) => (q.next, none)
        | (q, some payload) => (q.next, some (header ++ payload))

/-- The request of the client, and what the relay sends back. Sends succeed, and the network loses and reorders
nothing. -/
def sendRaw (s : UdpLink (SerialPort τ)) (request : List UInt8) : UdpLink (SerialPort τ) :=
  let (port, response) := handle answer s.server request
  { s with
    server := port
    sent := s.sent + 1
    inFlight := s.inFlight ++ response.toList.map (Datagram.mk s.sent) }

/-- A link with the arrivals at its socket, call by call. -/
abbrev State (τ : Type) := UdpLink (SerialPort τ) × (Nat → Nat)

def link : SendRecv (State τ) := fun (s, arrivals) request =>
  let (t, _, result) := UdpDv.recv (UdpDv.arrive (sendRaw answer s request) (arrivals 0))
  ((t, fun k => arrivals (k + 1)), result)

def vocoder : Vocoder (State τ) := AmbeServer.client (link answer)

/-! ## One queue -/

/-- The replies on the network, and behind them those on the port. -/
def Due (s : UdpLink (SerialPort τ)) (due : List (List UInt8)) : Prop :=
  ∃ behind, due = (UdpDv.outstanding s).map (·.bytes) ++ behind ∧ s.server.Due behind

/-- The relay passes on the reply in front, or leaves all where it is. -/
theorem handle_due {answer : τ → List UInt8 → τ × List UInt8} {p : SerialPort τ} {due : List (List UInt8)}
    {request : List UInt8} (h : p.Due due) (hreply : IsReply (answer p.chip request).2)
    (htime : ThumbDv.Punctual answer p request) :
    ∃ behind, (handle answer p request).2.toList ++ behind = due ++ [(answer p.chip request).2] ∧
      (handle answer p request).1.Due behind ∧ (handle answer p request).1.chip = (answer p.chip request).1 := by
  have hwritten := ThumbDv.due_write h hreply
  obtain ⟨hsent, ⟨hbuffer, hheader⟩ | ⟨hheader, hwhole⟩⟩ := htime
  · refine ⟨due ++ [(answer p.chip request).2], ?_⟩
    have hread : (p.write answer request).readExact headerSize 0 = (p.write answer request, none) := by
      rw [SerialPort.readExact_silent hbuffer (by decide), ← hbuffer]
    rw [handle, ThumbDv.sendRaw_written hsent]
    dsimp only
    rw [hheader, hread]
    exact ⟨rfl, ⟨hwritten.bytes, hwritten.replies⟩, rfl⟩
  · obtain ⟨reply, rest, hfront⟩ : ∃ reply rest, due ++ [(answer p.chip request).2] = reply :: rest := by
      cases due with
      | nil => exact ⟨_, _, rfl⟩
      | cons reply due => exact ⟨_, _, rfl⟩
    rw [hfront] at hwritten
    obtain ⟨q, header, r, payload, hread, hstart, -, hread', hjoin, hchip, -, hdue⟩ :=
      SerialPort.read_reply hwritten hheader hwhole
    have hhandle : handle answer p request = (r.next, some reply) := by
      simp only [handle, ThumbDv.sendRaw_written hsent, hread, hstart, ne_eq, not_true_eq_false, if_false, hread',
        hjoin]
    rw [hhandle, hfront]
    exact ⟨rest, rfl, ⟨hdue.bytes, hdue.replies⟩, hchip⟩

theorem due_sendRaw {answer : τ → List UInt8 → τ × List UInt8} {s : UdpLink (SerialPort τ)} {due : List (List UInt8)}
    {request : List UInt8} (h : Due s due) (hreply : IsReply (answer s.server.chip request).2)
    (htime : ThumbDv.Punctual answer s.server request) :
    Due (sendRaw answer s request) (due ++ [(answer s.server.chip request).2]) ∧
      (sendRaw answer s request).server.chip = (answer s.server.chip request).1 := by
  obtain ⟨behind, rfl, hbehind⟩ := h
  obtain ⟨rest, hfront, hrest, hchip⟩ := handle_due hbehind hreply htime
  refine ⟨⟨rest, ?_, hrest⟩, hchip⟩
  rw [List.append_assoc, ← hfront, UdpDv.outstanding, UdpDv.outstanding, sendRaw]
  dsimp only
  rw [List.map_append, List.map_append, List.map_append, List.map_map]
  rw [show (fun d : Datagram => d.bytes) ∘ Datagram.mk s.sent = id from rfl, List.map_id]
  simp only [List.append_assoc]

theorem due_arrive {s : UdpLink (SerialPort τ)} {due : List (List UInt8)} (h : Due s due) (n : Nat) :
    Due (UdpDv.arrive s n) due := by
  obtain ⟨behind, rfl, hbehind⟩ := h
  refine ⟨behind, ?_, hbehind⟩
  rw [UdpDv.outstanding, UdpDv.outstanding, UdpDv.arrive, List.append_assoc, List.take_append_drop]

/-- A call over the relay is one on the untagged link. -/
theorem link_due {answer : τ → List UInt8 → τ × List UInt8} {s : State τ} {due : List (List UInt8)}
    {request : List UInt8} (h : Due s.1 due) (hreply : IsReply (answer s.1.server.chip request).2)
    (htime : ThumbDv.Punctual answer s.1.server request) :
    ∃ gaveUp, (link answer s request).2 =
        resultOf (Untagged.step due ⟨(answer s.1.server.chip request).2, gaveUp⟩).2 ∧
      Due (link answer s request).1.1 (Untagged.step due ⟨(answer s.1.server.chip request).2, gaveUp⟩).1 ∧
      (link answer s request).1.1.server.chip = (answer s.1.server.chip request).1 := by
  obtain ⟨s, arrivals⟩ := s
  obtain ⟨hsent, hchip⟩ := due_sendRaw h hreply htime
  have harrived := due_arrive hsent (arrivals 0)
  have hserver : (UdpDv.arrive (sendRaw answer s request) (arrivals 0)).server.chip =
    (answer s.server.chip request).1 := hchip
  generalize harrive : UdpDv.arrive (sendRaw answer s request) (arrivals 0) = t at harrived hserver
  cases hbuf : t.rxBuf with
  | nil =>
    have hrecv : UdpDv.recv t = (t, none, .error .io) := by rw [UdpDv.recv, hbuf]
    refine ⟨true, ?_⟩
    rw [link, harrive, hrecv]
    exact ⟨rfl, harrived, hserver⟩
  | cons d rest =>
    have hrecv : UdpDv.recv t = ({ t with rxBuf := rest }, some d, recvPacket d.bytes) := by rw [UdpDv.recv, hbuf]
    obtain ⟨behind, hqueue, hbehind⟩ := harrived
    rw [UdpDv.outstanding, hbuf] at hqueue
    refine ⟨false, ?_⟩
    rw [link, harrive, hrecv, Untagged.step, if_neg Bool.false_ne_true, hqueue]
    exact ⟨rfl, ⟨behind, rfl, hbehind⟩, hserver⟩

/-- For a chip whose answers are packets. -/
def network (answer : τ → List UInt8 → τ × List UInt8) (hchip : ∀ chip request, IsReply (answer chip request).2) :
    Untagged.Link (State τ) (List UInt8) τ (Except VocoderError Packet) (List UInt8) where
  step := link answer
  serve := answer
  peer s := s.1.server.chip
  Due s := Due s.1
  ok s := ThumbDv.Punctual answer s.1.server
  result := resultOf
  lost := isTimeout
  lost_result := isTimeout_resultOf
  carries h htime := link_due h (hchip _ _) htime

/-- Both answers of a successful `init` of the client. -/
theorem init_ok {S : Type} {link : SendRecv S} {s : S} (h : (AmbeServer.init link s).2 = .ok ()) :
    (AmbeServer.init link s).1 = (link (link s buildReset).1 buildRatepDmr).1 ∧
      ∃ ready ack, isRatepAck ack = true ∧ (link s buildReset).2 = .ok ready ∧
        (link (link s buildReset).1 buildRatepDmr).2 = .ok ack := by
  unfold AmbeServer.init at h ⊢
  rcases hreset : link s buildReset with ⟨t, e | ready⟩
  · rw [hreset] at h
    cases h
  rw [hreset] at h
  dsimp only at h ⊢
  split at h
  · cases h
  rename_i hready
  rw [if_neg hready]
  rcases hratep : link t buildRatepDmr with ⟨u, e | ack⟩
  · rw [hratep] at h
    cases h
  rw [hratep] at h
  dsimp only at h ⊢
  split at h
  · cases h
  rename_i hack
  rw [if_neg hack]
  exact ⟨rfl, ready, ack, by simpa using hack, rfl, rfl⟩

/-- The order of replies is that of a chip on the client's own port: if no stale reply there passes for the answer to
the rate request, a client that the relay has served through `init` has nothing due, and then each call times out or
gets the reply to the call as many before it as have timed out. No send or write fails, no reply is split between two
reads of the port, the network loses and reorders nothing, and the chip acknowledges no rate when it is reset. -/
theorem relayed_order {answer : τ → List UInt8 → τ × List UInt8}
    (hchip : ∀ chip request, IsReply (answer chip request).2)
    (hreset : ∀ chip, ¬ AcksRatep (answer chip buildReset).2) {p : SerialPort τ} {stale : List (List UInt8)}
    (h : p.Due stale) (hstale : ∀ reply ∈ stale, ¬ AcksRatep reply) (arrivals : Nat → Nat)
    (hinit : (AmbeServer.init (link answer) (UdpDv.connect p, arrivals)).2 = .ok ()) (calls : List VocoderCall)
    (c : VocoderCall)
    (hok : (network answer hchip).Ok (UdpDv.connect p, arrivals)
      ([buildReset, buildRatepDmr] ++ (calls ++ [c]).map (·.request))) :
    let opened := (AmbeServer.init (link answer) (UdpDv.connect p, arrivals)).1
    let past := exec (vocoder answer).call opened calls
    stale = [] ∧
      (((vocoder answer).call past.1 c).2 = [c.result (.error .io)] ∨
        ∃ reply, ((network answer hchip).served opened.1.server.chip ((calls ++ [c]).map (·.request))).2[
            calls.length - past.2.countP VocoderResult.isTimeout]? = some reply ∧
          ((vocoder answer).call past.1 c).2 = [c.result (recvPacket reply)]) := by
  obtain ⟨hopened, ready, ack, hack, hfirst, hsecond⟩ := init_ok hinit
  obtain ⟨htwo, hcalls⟩ := (@along_exec_append _ _ _ (Untagged.single (link answer)) _ _ _ _).mp hok
  have hdue : (network answer hchip).Due (UdpDv.connect p, arrivals) stale := ⟨stale, rfl, h⟩
  have hearly : ∀ reply ∈ ((network answer hchip).served p.chip [buildReset]).2, ¬ AcksRatep reply := by
    intro reply hreply
    rw [List.mem_singleton.mp hreply]
    exact hreset _
  have hone : exec (Untagged.single (link answer)) (UdpDv.connect p, arrivals) [buildReset] =
      ((link answer (UdpDv.connect p, arrivals) buildReset).1, [.ok ready]) := by
    rw [exec, exec_nil, Untagged.single, hfirst]
    rfl
  have hrun : exec (Untagged.single (link answer)) (UdpDv.connect p, arrivals) ([buildReset] ++ [buildRatepDmr]) =
      ((AmbeServer.init (link answer) (UdpDv.connect p, arrivals)).1, [.ok ready] ++ [.ok ack]) := by
    rw [exec_snoc, hone, hopened, Untagged.single, hsecond]
  have hall : ((network answer hchip).run (UdpDv.connect p, arrivals) ([buildReset] ++ [buildRatepDmr])).2.countP
      isTimeout = 0 := by
    show (exec (Untagged.single (link answer)) _ ([buildReset] ++ [buildRatepDmr])).2.countP isTimeout = 0
    rw [hrun]
    rfl
  have hlast (read : Option (List UInt8))
      (hread : (link answer (exec (Untagged.single (link answer)) (UdpDv.connect p, arrivals) [buildReset]).1
        buildRatepDmr).2 = resultOf read) : ∃ reply ∈ read, AcksRatep reply := by
    rw [hone, hsecond] at hread
    exact exists_acksRatep hack hread
  obtain ⟨hnil, hclear⟩ := (network answer hchip).settled hdue hstale hearly htwo hall hlast
  have hstart : (exec (Untagged.single (link answer)) (UdpDv.connect p, arrivals) [buildReset, buildRatepDmr]).1 =
      (AmbeServer.init (link answer) (UdpDv.connect p, arrivals)).1 := congrArg Prod.fst hrun
  rw [hstart] at hcalls
  refine ⟨hnil, client_order (network answer hchip) rfl rfl ?_ hcalls⟩
  rw [← hstart]
  exact hclear

/-- The relay gives up on the third call. -/
def impatient : SerialPort Nat := ⟨0, [], [], fun k => if k = 2 then ⟨none, 0, 0⟩ else ⟨none, 4, 32⟩⟩

/-- The fourth call comes to nothing on the network. -/
def slow (k : Nat) : Nat := if k = 3 then 0 else 1

def turn : List VocoderCall := [.encode (.replicate 160 0), .encode (.replicate 160 1)]

/-- One reply is late on the port and one on the network. The third call gets the reply to the first, the chip's to
request 2. -/
theorem relayed_order_slow :
    (AmbeServer.init (link ThumbDv.numbered) (UdpDv.connect impatient, slow)).2 = .ok () ∧
      (let past := exec (vocoder ThumbDv.numbered).call
        (AmbeServer.init (link ThumbDv.numbered) (UdpDv.connect impatient, slow)).1 turn
      past.2.countP VocoderResult.isTimeout = 2 ∧
        ((vocoder ThumbDv.numbered).call past.1 (.encode (.replicate 160 2))).2 =
          [.encoded (.ok (.replicate 9 2))]) := by
  have hinit : (AmbeServer.init (link ThumbDv.numbered) (UdpDv.connect impatient, slow)).2 = .ok () := by decide +kernel
  have hdue : impatient.Due [] := ⟨rfl, List.forall_mem_nil _⟩
  have hok : Along (fun s request => some (link ThumbDv.numbered s request).1)
      (fun s => ThumbDv.Punctual ThumbDv.numbered s.1.server) (UdpDv.connect impatient, slow)
      ([buildReset, buildRatepDmr] ++
        (turn ++ [VocoderCall.encode (.replicate 160 2)]).map VocoderCall.request) := by decide +kernel
  obtain ⟨-, horder⟩ := relayed_order ThumbDv.numbered_reply ThumbDv.numbered_reset hdue
    (List.forall_mem_nil _) slow hinit turn (.encode (.replicate 160 2)) hok
  have hpast : (exec (vocoder ThumbDv.numbered).call
      (AmbeServer.init (link ThumbDv.numbered) (UdpDv.connect impatient, slow)).1 turn).2.countP
        VocoderResult.isTimeout = 2 := by decide +kernel
  have hanswered : ((vocoder ThumbDv.numbered).call (exec (vocoder ThumbDv.numbered).call
      (AmbeServer.init (link ThumbDv.numbered) (UdpDv.connect impatient, slow)).1 turn).1
        (.encode (.replicate 160 2))).2.map VocoderResult.isTimeout = [false] := by decide +kernel
  refine ⟨hinit, hpast, ?_⟩
  rcases horder with htimeout | ⟨reply, hreply, hresult⟩
  · rw [htimeout] at hanswered
    cases hanswered
  · have hchip : (AmbeServer.init (link ThumbDv.numbered) (UdpDv.connect impatient, slow)).1.1.server.chip = 2 := by
      decide +kernel
    have hlate : recvPacket reply = .ok (.ambe (.replicate 9 2)) := by
      rw [hchip, hpast] at hreply
      have hown : some (ThumbDv.numbered 2 (buildAudio (.replicate 160 0))).2 = some reply := hreply
      obtain rfl := Option.some.inj hown
      exact ThumbDv.numbered_frame 2 (by decide +kernel) (by decide +kernel)
    rw [hresult, hlate]
    rfl

end Relay

end DmrBridge
