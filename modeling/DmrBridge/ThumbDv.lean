import DmrBridge.AmbeServer
import DmrBridge.Dv3000Codec
import DmrBridge.Lib.Untagged

/-!
# The chip on a serial port

`ambe::thumbdv`. A call writes its request and reads the next packet on the port, so a reply that was too
late for its call answers a later one.
-/

open Endian Run DmrBridge.Dv3000

namespace DmrBridge

/-! ## Calls on a link without tags -/

/-- What a call that has read this returns. -/
def resultOf : Option (List UInt8) → Except VocoderError Packet
  | none => .error .io
  | some reply => recvPacket reply

def isTimeout : Except VocoderError Packet → Bool
  | .error .io => true
  | _ => false

theorem isTimeout_resultOf (read : Option (List UInt8)) : isTimeout (resultOf read) = read.isNone := by
  cases read with
  | none => rfl
  | some reply =>
    show isTimeout (recvPacket reply) = false
    unfold recvPacket
    split <;> rfl

def VocoderCall.request : VocoderCall → List UInt8
  | .encode pcm => buildAudio pcm
  | .decode ambe => AmbeServer.decodeRequest ambe

/-- What `encode` and `decode` make of the answer. -/
def VocoderCall.result : VocoderCall → Except VocoderError Packet → VocoderResult
  | .encode _, .ok (.ambe frame) => .encoded (.ok frame)
  | .encode _, .ok other => .encoded (.error (.encode ("expected AMBE response, got " ++ other.debug)))
  | .encode _, .error e => .encoded (.error e)
  | .decode _, .ok (.audio samples) => .decoded (.ok samples)
  | .decode _, .ok other => .decoded (.error (.decode ("expected audio response, got " ++ other.debug)))
  | .decode _, .error e => .decoded (.error e)

def VocoderResult.isTimeout : VocoderResult → Bool
  | .encoded (.error .io) => true
  | .decoded (.error .io) => true
  | _ => false

theorem VocoderCall.isTimeout_result (c : VocoderCall) (answer : Except VocoderError Packet) :
    (c.result answer).isTimeout = DmrBridge.isTimeout answer := by
  rcases answer with e | packet
  · cases c <;> cases e <;> rfl
  · cases c <;> cases packet <;> rfl

section Client

variable {S : Type} (link : SendRecv S)

theorem client_call (s : S) (c : VocoderCall) :
    (AmbeServer.client link).call s c = ((link s c.request).1, [c.result (link s c.request).2]) := by
  cases c with
  | encode pcm =>
    show ((AmbeServer.encode link s pcm).1, [VocoderResult.encoded (AmbeServer.encode link s pcm).2]) = _
    rw [AmbeServer.encode, VocoderCall.request]
    rcases link s (buildAudio pcm) with ⟨t, e | packet⟩
    · rfl
    · cases packet <;> rfl
  | decode ambe =>
    show ((AmbeServer.decode link s ambe).1, [VocoderResult.decoded (AmbeServer.decode link s ambe).2]) = _
    rw [AmbeServer.decode, VocoderCall.request]
    rcases link s (AmbeServer.decodeRequest ambe) with ⟨t, e | packet⟩
    · rfl
    · cases packet <;> rfl

theorem client_exec (s : S) (calls : List VocoderCall) :
    (exec (AmbeServer.client link).call s calls).1 = (exec (Untagged.single link) s (calls.map (·.request))).1 ∧
      (exec (AmbeServer.client link).call s calls).2.countP VocoderResult.isTimeout =
        (exec (Untagged.single link) s (calls.map (·.request))).2.countP isTimeout := by
  induction calls generalizing s with
  | nil => exact ⟨rfl, rfl⟩
  | cons c calls ih =>
    obtain ⟨hend, hcount⟩ := ih (link s c.request).1
    rw [exec, List.map_cons, exec, client_call]
    refine ⟨hend, ?_⟩
    dsimp only [Untagged.single]
    rw [List.countP_append, List.countP_append, hcount, List.countP_singleton, List.countP_singleton,
      VocoderCall.isTimeout_result]

end Client

/-- A reply that passes for the answer to the rate request. -/
def AcksRatep (reply : List UInt8) : Prop := ∃ packet, recvPacket reply = .ok packet ∧ isRatepAck packet = true

theorem exists_acksRatep {read : Option (List UInt8)} {ack : Packet} (hack : isRatepAck ack = true)
    (h : Except.ok ack = resultOf read) : ∃ reply ∈ read, AcksRatep reply := by
  cases read with
  | none => cases h
  | some reply => exact ⟨reply, rfl, ack, h.symm, hack⟩

/-- On a link with nothing due, a call times out or makes its result of the reply to the call as many before it as
have timed out. -/
theorem client_order {S τ : Type} (l : Untagged.Link S (List UInt8) τ (Except VocoderError Packet) (List UInt8))
    (hresult : l.result = resultOf) (hlost : l.lost = isTimeout) {s : S} (h : l.Due s []) {calls : List VocoderCall}
    {c : VocoderCall} (hok : l.Ok s ((calls ++ [c]).map (·.request))) :
    ((AmbeServer.client l.step).call (exec (AmbeServer.client l.step).call s calls).1 c).2 = [c.result (.error .io)] ∨
      ∃ reply, (l.served (l.peer s) ((calls ++ [c]).map (·.request))).2[
          calls.length - (exec (AmbeServer.client l.step).call s calls).2.countP VocoderResult.isTimeout]? =
            some reply ∧
        ((AmbeServer.client l.step).call (exec (AmbeServer.client l.step).call s calls).1 c).2 =
          [c.result (recvPacket reply)] := by
  obtain ⟨hstate, hcount⟩ := client_exec l.step s calls
  rw [List.map_append, List.map_singleton] at hok ⊢
  rw [hstate, hcount, client_call, ← hlost, ← @List.length_map _ _ calls (·.request)]
  rcases l.order h hok with htimeout | ⟨reply, hreply, hread⟩
  · left
    rw [htimeout, hresult]
    rfl
  · right
    refine ⟨reply, hreply, ?_⟩
    rw [hread, hresult]
    rfl

/-- Whether a call's write fails, and then after how many bytes, and how many come in while it waits for the header and
then for the payload. -/
structure Timing where
  unwritten : Option Nat
  header : Nat
  payload : Nat

structure SerialPort (τ : Type) where
  chip : τ
  buffer : List UInt8
  /-- What the chip has sent and the port does not have yet. -/
  line : List UInt8
  /-- Of the calls to come. -/
  timing : Nat → Timing

namespace SerialPort

variable {τ : Type} (answer : τ → List UInt8 → τ × List UInt8)

/-- The chip gets these bytes. -/
def write (p : SerialPort τ) (bytes : List UInt8) : SerialPort τ :=
  { p with chip := (answer p.chip bytes).1, line := p.line ++ (answer p.chip bytes).2 }

/-- `write_all` and `flush` -/
def sendRaw (p : SerialPort τ) (request : List UInt8) : SerialPort τ × Except VocoderError Unit :=
  match (p.timing 0).unwritten with
  | none => (p.write answer request, .ok ())
  | some n => (p.write answer (request.take n), .error .io)

/-- `read_exact`. What it has read when its time is up is gone. -/
def readExact (p : SerialPort τ) (n arrivals : Nat) : SerialPort τ × Option (List UInt8) :=
  let buffer := p.buffer ++ p.line.take arrivals
  let line := p.line.drop arrivals
  if n ≤ buffer.length then ({ p with buffer := buffer.drop n, line }, some (buffer.take n))
  else ({ p with buffer := [], line }, none)

/-- The call is over, whatever came of it. -/
def next (p : SerialPort τ) : SerialPort τ := { p with timing := fun k => p.timing (k + 1) }

end SerialPort

/-- A byte as two hexadecimal digits. -/
def hexByte (b : UInt8) : String := String.ofList [Nat.digitChar (b.toNat / 16), Nat.digitChar (b.toNat % 16)]

def payloadLen (header : List UInt8) : Nat := ofBeBytes ((header.drop 1).take 2)

namespace ThumbDv

variable {τ : Type} (answer : τ → List UInt8 → τ × List UInt8)

/-- A header of a packet that is too long stays read, its payload does not. -/
def recv (p : SerialPort τ) (t : Timing) : SerialPort τ × Except VocoderError Packet :=
  match p.readExact headerSize t.header with
  | (p, none) => (p, .error .io)
  | (p, some header) =>
    if header.getD 0 0 ≠ startByte then (p, .error (.protocol ("bad start byte: 0x" ++ hexByte (header.getD 0 0))))
    else if maxPacket < payloadLen header + headerSize then
      (p, .error (.protocol ("payload too large: " ++ toString (payloadLen header))))
    else
      match p.readExact (payloadLen header) t.payload with
      | (p, none) => (p, .error .io)
      | (p, some payload) =>
        match parse (header ++ payload) with
        | .ok (packet, _) => (p, .ok packet)
        | .error e => (p, .error (.parse e))

/-- One call: `send_raw` and then `recv`. -/
def link : SendRecv (SerialPort τ) := fun p request =>
  match p.sendRaw answer request with
  | (q, .error e) => (q.next, .error e)
  | (q, .ok ()) =>
    let (q, result) := recv q (p.timing 0)
    (q.next, result)

def init (p : SerialPort τ) : SerialPort τ × Except VocoderError Unit :=
  match link answer p buildReset with
  | (p, .error e) => (p, .error e)
  | (p, .ok response) =>
    if isReady response = false then
      (p, .error (.init ("expected READY after reset, got " ++ response.debug)))
    else
      match link answer p buildProdid with
      | (p, .error e) => (p, .error e)
      | (p, .ok _) =>
        match link answer p buildRatepDmr with
        | (p, .error e) => (p, .error e)
        | (p, .ok response) =>
          if isRatepAck response = false then
            (p, .error (.init ("expected RATEP ack, got " ++ response.debug)))
          else (p, .ok ())

/-- `encode`, `decode` and `set_gain` are those of the AMBEserver client, on this link. -/
def vocoder : Vocoder (SerialPort τ) := AmbeServer.client (link answer)

end ThumbDv

/-! ## What is due on a port -/

/-- A packet of the chip, of a size that the client takes. -/
def IsReply (reply : List UInt8) : Prop :=
  ∃ packetType payload, reply = frame packetType payload ∧ reply.length ≤ maxPacket

namespace SerialPort

variable {τ : Type}

/-- The bytes in the port and on the line are those of whole replies. -/
structure Due (p : SerialPort τ) (due : List (List UInt8)) : Prop where
  bytes : p.buffer ++ p.line = due.flatten
  replies : ∀ reply ∈ due, IsReply reply

/-- A read gives up before anything has come, or all of the packet in front comes in time. -/
def InTime (p : SerialPort τ) (t : Timing) : Prop :=
  p.buffer = [] ∧ t.header = 0 ∨
    headerSize ≤ p.buffer.length + t.header ∧
      headerSize + payloadLen (p.buffer ++ p.line) ≤ p.buffer.length + t.header + t.payload

instance (p : SerialPort τ) (t : Timing) : Decidable (p.InTime t) := inferInstanceAs (Decidable (_ ∨ _))

theorem readExact_some (p : SerialPort τ) (n arrivals : Nat) (hn : n ≤ (p.buffer ++ p.line).length)
    (harrived : n ≤ p.buffer.length + arrivals) :
    ∃ q, p.readExact n arrivals = (q, some ((p.buffer ++ p.line).take n)) ∧ q.chip = p.chip ∧ q.timing = p.timing ∧
      q.buffer ++ q.line = (p.buffer ++ p.line).drop n ∧
      min (p.buffer.length + arrivals) (p.buffer ++ p.line).length = n + q.buffer.length := by
  have hsplit : p.buffer ++ p.line = p.buffer ++ p.line.take arrivals ++ p.line.drop arrivals := by
    rw [List.append_assoc, List.take_append_drop]
  have hlength : (p.buffer ++ p.line.take arrivals).length =
      min (p.buffer.length + arrivals) (p.buffer ++ p.line).length := by
    rw [List.length_append, List.length_append, List.length_take]
    omega
  have hroom : n ≤ (p.buffer ++ p.line.take arrivals).length := by
    rw [hlength]
    omega
  unfold readExact
  dsimp only
  rw [if_pos hroom]
  refine ⟨{ p with buffer := (p.buffer ++ p.line.take arrivals).drop n, line := p.line.drop arrivals }, ?_, rfl,
    rfl, ?_, ?_⟩
  · rw [hsplit, List.take_append_of_le_length hroom]
  · rw [hsplit, List.drop_append_of_le_length hroom]
  · rw [← hlength, List.length_drop]
    omega

theorem readExact_silent {p : SerialPort τ} {n : Nat} (hbuffer : p.buffer = []) (hn : 0 < n) :
    p.readExact n 0 = ({ p with buffer := [] }, none) := by
  unfold readExact
  dsimp only
  rw [hbuffer, List.take_zero, List.drop_zero]
  exact if_neg (Nat.not_le.mpr hn)

/-- The header of a packet, and the length in it. -/
theorem frame_header (packetType : UInt8) (payload rest : List UInt8) (h : payload.length < 65536) :
    ∃ header, (frame packetType payload ++ rest).take headerSize = header ∧
      header ++ payload = frame packetType payload ∧
      (frame packetType payload ++ rest).drop headerSize = payload ++ rest ∧ header.getD 0 0 = startByte ∧
      payloadLen header = payload.length ∧ payloadLen (frame packetType payload ++ rest) = payload.length := by
  obtain ⟨hi, lo, hlen⟩ : ∃ hi lo, beBytes 2 payload.length = [hi, lo] := ⟨_, _, rfl⟩
  have hvalue : ofBeBytes [hi, lo] = payload.length := by
    rw [← hlen, ofBeBytes_beBytes, Nat.mod_eq_of_lt (by simpa using h)]
  refine ⟨[startByte, hi, lo, packetType], ?_, ?_, ?_, rfl, hvalue, ?_⟩
  · rw [frame, hlen]
    rfl
  · rw [frame, hlen]
    rfl
  · rw [frame, hlen]
    rfl
  · rw [frame, hlen]
    exact hvalue

/-- Both reads of a call get the reply in front, and nothing else. -/
theorem read_reply {p : SerialPort τ} {reply : List UInt8} {due : List (List UInt8)} {t : Timing}
    (h : p.Due (reply :: due)) (hheader : headerSize ≤ p.buffer.length + t.header)
    (hwhole : headerSize + payloadLen (p.buffer ++ p.line) ≤ p.buffer.length + t.header + t.payload) :
    ∃ q header r payload, p.readExact headerSize t.header = (q, some header) ∧ header.getD 0 0 = startByte ∧
      ¬ maxPacket < payloadLen header + headerSize ∧
      q.readExact (payloadLen header) t.payload = (r, some payload) ∧ header ++ payload = reply ∧
      r.chip = p.chip ∧ r.timing = p.timing ∧ r.Due due := by
  obtain ⟨packetType, payload, rfl, hfits⟩ := h.replies reply List.mem_cons_self
  have hsize : headerSize + payload.length ≤ maxPacket := by
    rw [← length_frame packetType payload]
    exact hfits
  have hmax : maxPacket = 512 := rfl
  have hfour : headerSize = 4 := rfl
  have hbytes : p.buffer ++ p.line = frame packetType payload ++ due.flatten := h.bytes
  obtain ⟨header, htake, hjoin, hdrop, hstart, hlen, hfront⟩ :=
    frame_header packetType payload due.flatten (by omega)
  have htotal : (p.buffer ++ p.line).length = headerSize + payload.length + due.flatten.length := by
    rw [hbytes, List.length_append, length_frame]
  rw [hbytes, hfront] at hwhole
  obtain ⟨q, hread, hchip, htiming, hrest, hleft⟩ := readExact_some p headerSize t.header (by omega) hheader
  rw [hbytes, hdrop] at hrest
  have hqtotal : (q.buffer ++ q.line).length = payload.length + due.flatten.length := by rw [hrest, List.length_append]
  obtain ⟨r, hread', hchip', htiming', hrest', -⟩ :=
    readExact_some q payload.length t.payload (by omega) (by omega)
  rw [hrest, List.take_left] at hread'
  rw [hrest, List.drop_left] at hrest'
  rw [hbytes, htake] at hread
  refine ⟨q, header, r, payload, hread, hstart, ?_, ?_, hjoin, hchip'.trans hchip, htiming'.trans htiming, hrest', ?_⟩
  · rw [hlen]
    omega
  · rw [hlen]
    exact hread'
  · exact fun reply hreply => h.replies reply (List.mem_cons_of_mem _ hreply)

end SerialPort

namespace ThumbDv

variable {τ : Type} {answer : τ → List UInt8 → τ × List UInt8}

theorem due_write {p : SerialPort τ} {due : List (List UInt8)} {request : List UInt8} (h : p.Due due)
    (hreply : IsReply (answer p.chip request).2) :
    (p.write answer request).Due (due ++ [(answer p.chip request).2]) where
  bytes := by
    rw [List.flatten_append, ← h.bytes, SerialPort.write, List.flatten_singleton, List.append_assoc]
  replies := List.forall_mem_append.mpr ⟨h.replies, List.forall_mem_singleton.mpr hreply⟩

/-- What `recv` makes of a whole reply. -/
theorem recv_reply {p : SerialPort τ} {reply : List UInt8} {due : List (List UInt8)} {t : Timing}
    (h : p.Due (reply :: due))
    (htime : headerSize ≤ p.buffer.length + t.header ∧
      headerSize + payloadLen (p.buffer ++ p.line) ≤ p.buffer.length + t.header + t.payload) :
    ∃ q, recv p t = (q, recvPacket reply) ∧ q.chip = p.chip ∧ q.timing = p.timing ∧ q.Due due := by
  obtain ⟨q, header, r, payload, hheader, hstart, hsize, hpayload, hjoin, hchip, htiming, hdue⟩ :=
    SerialPort.read_reply h htime.1 htime.2
  have hfits : reply.length ≤ maxPacket := by
    obtain ⟨packetType, payload, rfl, hfits⟩ := h.replies reply List.mem_cons_self
    exact hfits
  refine ⟨r, ?_, hchip, htiming, hdue⟩
  simp only [recv, hheader, hstart, ne_eq, not_true_eq_false, if_false, if_neg hsize, hpayload, hjoin]
  rw [recvPacket, List.take_of_length_le hfits]
  cases parse reply with
  | error e => rfl
  | ok parsed => rfl

/-- A call that gives up leaves everything where it is. -/
theorem recv_silent {p : SerialPort τ} {t : Timing} (hbuffer : p.buffer = []) (ht : t.header = 0) :
    recv p t = (p, .error .io) := by
  have hread : p.readExact headerSize 0 = (p, none) := by
    rw [SerialPort.readExact_silent hbuffer (by decide), ← hbuffer]
  rw [recv, ht, hread]

/-! ## Whole sessions -/

/-- The call of this request gets it out and meets the timing of its turn. -/
def Punctual (answer : τ → List UInt8 → τ × List UInt8) (p : SerialPort τ) (request : List UInt8) : Prop :=
  (p.timing 0).unwritten = none ∧ (p.write answer request).InTime (p.timing 0)

instance (p : SerialPort τ) (request : List UInt8) : Decidable (Punctual answer p request) :=
  inferInstanceAs (Decidable (_ ∧ SerialPort.InTime _ _))

theorem sendRaw_written {p : SerialPort τ} (h : (p.timing 0).unwritten = none) (request : List UInt8) :
    p.sendRaw answer request = (p.write answer request, .ok ()) := by
  rw [SerialPort.sendRaw, h]

/-- A call on the port is one on the untagged link. -/
theorem link_due {p : SerialPort τ} {due : List (List UInt8)} {request : List UInt8} (h : p.Due due)
    (hreply : IsReply (answer p.chip request).2) (htime : Punctual answer p request) :
    ∃ gaveUp, (link answer p request).2 = resultOf (Untagged.step due ⟨(answer p.chip request).2, gaveUp⟩).2 ∧
      (link answer p request).1.Due (Untagged.step due ⟨(answer p.chip request).2, gaveUp⟩).1 ∧
      (link answer p request).1.chip = (answer p.chip request).1 := by
  have hwritten := due_write h hreply
  obtain ⟨hsent, ⟨hbuffer, htime⟩ | htime⟩ := htime
  · refine ⟨true, ?_⟩
    rw [link, sendRaw_written hsent]
    dsimp only
    rw [recv_silent hbuffer htime]
    exact ⟨rfl, ⟨hwritten.bytes, hwritten.replies⟩, rfl⟩
  · refine ⟨false, ?_⟩
    obtain ⟨reply, rest, hfront⟩ : ∃ reply rest, due ++ [(answer p.chip request).2] = reply :: rest := by
      cases due with
      | nil => exact ⟨_, _, rfl⟩
      | cons reply due => exact ⟨_, _, rfl⟩
    rw [hfront] at hwritten
    obtain ⟨q, hrecv, hchip, -, hdue⟩ := recv_reply hwritten htime
    rw [link, sendRaw_written hsent]
    dsimp only
    rw [hrecv, Untagged.step, if_neg Bool.false_ne_true, hfront]
    exact ⟨rfl, ⟨hdue.bytes, hdue.replies⟩, hchip⟩

/-- For a chip whose answers are packets. -/
def port (answer : τ → List UInt8 → τ × List UInt8) (hchip : ∀ chip request, IsReply (answer chip request).2) :
    Untagged.Link (SerialPort τ) (List UInt8) τ (Except VocoderError Packet) (List UInt8) where
  step := link answer
  serve := answer
  peer := SerialPort.chip
  Due := SerialPort.Due
  ok := Punctual answer
  result := resultOf
  lost := isTimeout
  lost_result := isTimeout_resultOf
  carries h htime := link_due h (hchip _ _) htime

/-- All three answers of a successful `init`, in turn. -/
theorem init_ok {p : SerialPort τ} (h : (init answer p).2 = .ok ()) :
    (init answer p).1 =
      (link answer (exec (Untagged.single (link answer)) p [buildReset, buildProdid]).1 buildRatepDmr).1 ∧
      ∃ ready prodid ack, isReady ready = true ∧ isRatepAck ack = true ∧
        (exec (Untagged.single (link answer)) p [buildReset, buildProdid]).2 = [.ok ready, .ok prodid] ∧
        (link answer (exec (Untagged.single (link answer)) p [buildReset, buildProdid]).1 buildRatepDmr).2 =
          .ok ack := by
  unfold init at h ⊢
  rcases hreset : link answer p buildReset with ⟨q, e | ready⟩
  · rw [hreset] at h
    cases h
  rw [hreset] at h
  dsimp only at h ⊢
  split at h
  · cases h
  rename_i hready
  rw [if_neg hready]
  rcases hprodid : link answer q buildProdid with ⟨r, e | prodid⟩
  · rw [hprodid] at h
    cases h
  rw [hprodid] at h
  dsimp only at h ⊢
  rcases hratep : link answer r buildRatepDmr with ⟨s, e | ack⟩
  · rw [hratep] at h
    cases h
  rw [hratep] at h
  dsimp only at h ⊢
  split at h
  · cases h
  rename_i hack
  rw [if_neg hack]
  have htwo : exec (Untagged.single (link answer)) p [buildReset, buildProdid] = (r, [.ok ready, .ok prodid]) := by
    simp only [exec, Untagged.single, hreset, hprodid]
    rfl
  rw [htwo, hratep]
  exact ⟨rfl, ready, prodid, ack, by simpa using hready, by simpa using hack, rfl, rfl⟩

/-- If no stale reply on the port passes for the answer to the rate request, a port that `init` has found in order had
no stale reply at all. From there on a call times out or makes its result of the reply to the call as many before it as
have timed out. No write fails, no reply is split between two reads, and the chip acknowledges no rate with its answers
to the other two requests. -/
theorem session_order {answer : τ → List UInt8 → τ × List UInt8}
    (hchip : ∀ chip request, IsReply (answer chip request).2)
    (hreset : ∀ chip, ¬ AcksRatep (answer chip buildReset).2)
    (hprodid : ∀ chip, ¬ AcksRatep (answer chip buildProdid).2)
    {p : SerialPort τ} {stale : List (List UInt8)} (h : p.Due stale) (hstale : ∀ reply ∈ stale, ¬ AcksRatep reply)
    (hinit : (init answer p).2 = .ok ()) (calls : List VocoderCall) (c : VocoderCall)
    (hok : (port answer hchip).Ok p ([buildReset, buildProdid, buildRatepDmr] ++ (calls ++ [c]).map (·.request))) :
    let opened := (init answer p).1
    let past := exec (vocoder answer).call opened calls
    stale = [] ∧
      (((vocoder answer).call past.1 c).2 = [c.result (.error .io)] ∨
        ∃ reply, ((port answer hchip).served opened.chip ((calls ++ [c]).map (·.request))).2[
            calls.length - past.2.countP VocoderResult.isTimeout]? = some reply ∧
          ((vocoder answer).call past.1 c).2 = [c.result (recvPacket reply)]) := by
  obtain ⟨hopened, ready, prodid, ack, -, hack, htwo, hthird⟩ := init_ok hinit
  obtain ⟨hthree, hcalls⟩ := (@along_exec_append _ _ _ (Untagged.single (link answer)) _ _ _ _).mp hok
  have hearly : ∀ reply ∈ ((port answer hchip).served p.chip [buildReset, buildProdid]).2, ¬ AcksRatep reply := by
    intro reply hreply
    rcases List.mem_cons.mp hreply with rfl | hreply
    · exact hreset _
    · rw [List.mem_singleton.mp hreply]
      exact hprodid _
  have hrun : exec (Untagged.single (link answer)) p ([buildReset, buildProdid] ++ [buildRatepDmr]) =
      ((init answer p).1, [.ok ready, .ok prodid] ++ [.ok ack]) := by
    rw [exec_snoc, htwo, hopened, Untagged.single, hthird]
  have hall : ((port answer hchip).run p ([buildReset, buildProdid] ++ [buildRatepDmr])).2.countP isTimeout = 0 := by
    show (exec (Untagged.single (link answer)) p ([buildReset, buildProdid] ++ [buildRatepDmr])).2.countP isTimeout = 0
    rw [hrun]
    rfl
  have hlast (read : Option (List UInt8))
      (hread : (link answer (exec (Untagged.single (link answer)) p [buildReset, buildProdid]).1 buildRatepDmr).2 =
        resultOf read) : ∃ reply ∈ read, AcksRatep reply :=
    exists_acksRatep hack (hthird.symm.trans hread)
  obtain ⟨hnil, hdue⟩ := (port answer hchip).settled h hstale hearly hthree hall hlast
  have hstart : (exec (Untagged.single (link answer)) p [buildReset, buildProdid, buildRatepDmr]).1 =
    (init answer p).1 :=
    congrArg Prod.fst hrun
  rw [hstart] at hcalls
  refine ⟨hnil, client_order (port answer hchip) rfl rfl ?_ hcalls⟩
  rw [← hstart]
  exact hdue

/-- A chip that answers a frame with the number of the request. -/
def numbered (n : Nat) (request : List UInt8) : Nat × List UInt8 :=
  (n + 1,
    if request = buildReset then buildReady
    else if request = buildRatepDmr then buildControlAck controlRatep 0
    else buildAmbe (.replicate 9 (.ofNat n)))

theorem numbered_reply (n : Nat) (request : List UInt8) : IsReply (numbered n request).2 := by
  unfold numbered
  dsimp only
  split
  · exact ⟨typeControl, [controlReady], rfl, by decide⟩
  · split
    · exact ⟨typeControl, [controlRatep, 0], rfl, by decide⟩
    · refine ⟨typeAmbe, _, rfl, ?_⟩
      rw [length_buildAmbe]
      decide

theorem numbered_reset (n : Nat) : ¬ AcksRatep (numbered n buildReset).2 := by
  rintro ⟨packet, hparse, hack⟩
  have hready : recvPacket (numbered n buildReset).2 = .ok (.control controlReady []) := rfl
  cases hready.symm.trans hparse
  exact absurd hack (by decide)

theorem numbered_frame (n : Nat) {request : List UInt8} (hreset : request ≠ buildReset)
    (hratep : request ≠ buildRatepDmr) :
    recvPacket (numbered n request).2 = .ok (.ambe (.replicate 9 (.ofNat n))) := by
  obtain ⟨k, hframe⟩ := parse_buildAmbe (.replicate 9 (.ofNat n))
  have hlength : (buildAmbe (.replicate 9 (.ofNat n))).length ≤ maxPacket :=
    (length_buildAmbe (.replicate 9 (.ofNat n))).trans_le (by decide)
  rw [numbered, if_neg hreset, if_neg hratep]
  exact recvPacket_of_parse hlength hframe

theorem numbered_prodid (n : Nat) : ¬ AcksRatep (numbered n buildProdid).2 := by
  rintro ⟨packet, hparse, hack⟩
  cases (numbered_frame n (by decide) (by decide)).symm.trans hparse
  exact absurd hack Bool.false_ne_true

/-- The fourth call is too early for its reply. -/
def hurried : SerialPort Nat := ⟨0, [], [], fun k => if k = 3 then ⟨none, 0, 0⟩ else ⟨none, 4, 32⟩⟩

/-- The first frame's call gives up, and its reply, the chip's to request 3, answers the second frame's call. -/
theorem session_order_hurried :
    (init numbered hurried).2 = .ok () ∧
      (let past := exec (vocoder numbered).call (init numbered hurried).1 [.encode (.replicate 160 0)]
      past.2.countP VocoderResult.isTimeout = 1 ∧
        ((vocoder numbered).call past.1 (.encode (.replicate 160 1))).2 = [.encoded (.ok (.replicate 9 3))]) := by
  have hinit : (init numbered hurried).2 = .ok () := by decide +kernel
  have hok : Along (fun p request => some (link numbered p request).1) (Punctual numbered) hurried
      ([buildReset, buildProdid, buildRatepDmr] ++
        ([VocoderCall.encode (.replicate 160 0)] ++
          [VocoderCall.encode (.replicate 160 1)]).map VocoderCall.request) := by
    decide +kernel
  obtain ⟨-, horder⟩ := session_order numbered_reply numbered_reset numbered_prodid ⟨rfl, List.forall_mem_nil _⟩
    (List.forall_mem_nil _) hinit [.encode (.replicate 160 0)] (.encode (.replicate 160 1)) hok
  have hpast : (exec (vocoder numbered).call (init numbered hurried).1 [.encode (.replicate 160 0)]).2.countP
      VocoderResult.isTimeout = 1 := by decide +kernel
  have hanswered : ((vocoder numbered).call (exec (vocoder numbered).call (init numbered hurried).1
      [.encode (.replicate 160 0)]).1 (.encode (.replicate 160 1))).2.map VocoderResult.isTimeout = [false] := by
    decide +kernel
  refine ⟨hinit, hpast, ?_⟩
  rcases horder with htimeout | ⟨reply, hreply, hresult⟩
  · rw [htimeout] at hanswered
    cases hanswered
  · have hchip : (init numbered hurried).1.chip = 3 := by decide +kernel
    have hlate : recvPacket reply = .ok (.ambe (.replicate 9 3)) := by
      rw [hchip, hpast] at hreply
      have hown : some (numbered 3 (buildAudio (.replicate 160 0))).2 = some reply := hreply
      obtain rfl := Option.some.inj hown
      exact numbered_frame 3 (by decide +kernel) (by decide +kernel)
    rw [hresult, hlate]
    rfl

end ThumbDv

end DmrBridge
