import DmrBridge.AmbeServer
import DmrBridge.Lib.Run

/-!
# Requests and replies over UDP

`UdpDvTransport::send_recv` sends a request and takes the next datagram on the socket. Nothing ties
the two together, so a reply that comes after its timeout answers the next request.
-/

open Run DmrBridge.Dv3000

namespace DmrBridge

structure Datagram where
  tag : Nat
  bytes : List UInt8
  deriving DecidableEq

structure UdpLink (τ : Type) where
  server : τ
  sent : Nat
  inFlight : List Datagram
  rxBuf : List Datagram

/-- `arrivals` replies reach the socket between the end of the call before and the end of this one. -/
structure UdpCall where
  request : List UInt8
  arrivals : Nat

/-- One `send_recv`: the server's reply to it, the datagram that it read and what it returned. -/
structure Exchange where
  own : Datagram
  read : Option Datagram
  result : Except VocoderError Packet

namespace UdpDv

variable {τ : Type} (answer : τ → List UInt8 → τ × List UInt8)

def connect (server : τ) : UdpLink τ := ⟨server, 0, [], []⟩

def ownReply (s : UdpLink τ) (packet : List UInt8) : Datagram := ⟨s.sent, (answer s.server packet).2⟩

/-- The server answers at once; how long the answer takes is up to `arrive`. The send succeeds. -/
def sendRaw (s : UdpLink τ) (packet : List UInt8) : UdpLink τ :=
  { s with
    server := (answer s.server packet).1
    sent := s.sent + 1
    inFlight := s.inFlight ++ [ownReply answer s packet] }

def arrive (s : UdpLink τ) (n : Nat) : UdpLink τ :=
  { s with rxBuf := s.rxBuf ++ s.inFlight.take n, inFlight := s.inFlight.drop n }

def recv (s : UdpLink τ) : UdpLink τ × Option Datagram × Except VocoderError Packet :=
  match s.rxBuf with
  | [] => (s, none, .error .io)
  | d :: rest => ({ s with rxBuf := rest }, some d, recvPacket d.bytes)

def await (s : UdpLink τ) (c : UdpCall) : UdpLink τ := arrive (sendRaw answer s c.request) c.arrivals

def exchange (s : UdpLink τ) (c : UdpCall) : UdpLink τ × List Exchange :=
  let (t, read, result) := recv (await answer s c)
  (t, [⟨ownReply answer s c.request, read, result⟩])

def sendRecv (arrivals : Nat) : SendRecv (UdpLink τ) := fun s request =>
  let (t, _, result) := recv (await answer s ⟨request, arrivals⟩)
  (t, result)

def outstanding (s : UdpLink τ) : List Datagram := s.rxBuf ++ s.inFlight

end UdpDv

/-- A call that succeeds returns the reply to its own request. -/
def Exchange.Paired (x : Exchange) : Prop :=
  ∀ packet, x.result = .ok packet → x.read = some x.own ∧ recvPacket x.own.bytes = .ok packet

namespace UdpDv

/-- Replies to earlier requests do no harm: there is none, or nothing arrives, or the first is no packet. -/
def Undisturbed {τ : Type} (s : UdpLink τ) (c : UdpCall) : Prop :=
  ∀ d ∈ (outstanding s).head?, (s.rxBuf = [] ∧ c.arrivals = 0) ∨ (recvPacket d.bytes).isOk = false

def Past {τ : Type} (s : UdpLink τ) : Prop := ∀ d ∈ outstanding s, d.tag < s.sent

variable {τ : Type} (answer : τ → List UInt8 → τ × List UInt8)

/-! ## One call -/

theorem recv_result (s : UdpLink τ) :
    (recv s).2.2 = match (recv s).2.1 with
      | none => .error .io
      | some d => recvPacket d.bytes := by
  rw [recv]
  split <;> rfl

theorem recv_past {s : UdpLink τ} (h : Past s) : Past (recv s).1 := by
  intro d hd
  rw [recv] at hd ⊢
  split at hd
  · exact h d hd
  · rename_i d' rest hbuf
    have hmem : d ∈ outstanding s := by
      rw [outstanding, hbuf]
      exact List.mem_cons_of_mem d' hd
    exact h d hmem

theorem await_past {s : UdpLink τ} (h : Past s) (c : UdpCall) : Past (await answer s c) := by
  intro d hd
  have hmem : d ∈ outstanding s ++ [ownReply answer s c.request] := by
    simpa [await, arrive, sendRaw, outstanding] using hd
  rcases List.mem_append.mp hmem with hold | hown
  · exact Nat.lt_succ_of_lt (h d hold)
  · rw [List.mem_singleton.mp hown]
    exact Nat.lt_succ_self s.sent

/-- The datagram read is the oldest outstanding, the call's own reply being the youngest. -/
theorem read_eq (s : UdpLink τ) (c : UdpCall) :
    (recv (await answer s c)).2.1 =
      if s.rxBuf = [] ∧ c.arrivals = 0 then none
      else (outstanding s ++ [ownReply answer s c.request]).head? := by
  have hrecv : ∀ t : UdpLink τ, (recv t).2.1 = t.rxBuf.head? := fun t => by
    rw [recv]
    split <;> simp [*]
  obtain ⟨server, sent, inFlight, rxBuf⟩ := s
  obtain ⟨request, arrivals⟩ := c
  rw [hrecv]
  cases rxBuf with
  | cons d rest => simp [await, arrive, sendRaw, outstanding]
  | nil =>
    cases arrivals with
    | zero => simp [await, arrive, sendRaw]
    | succ n => cases inFlight <;> simp [await, arrive, sendRaw, outstanding, ownReply]

theorem exchange_paired_iff {s : UdpLink τ} (h : Past s) (c : UdpCall) :
    (∀ x ∈ (exchange answer s c).2, x.Paired) ↔ Undisturbed s c := by
  have hread := read_eq answer s c
  have hresult := recv_result (await answer s c)
  simp only [exchange, List.mem_singleton, forall_eq, Exchange.Paired]
  constructor
  · intro hpaired d hd
    by_cases hquiet : s.rxBuf = [] ∧ c.arrivals = 0
    · exact Or.inl hquiet
    · right
      have hold : d.tag < s.sent := h d (List.mem_of_mem_head? hd)
      have hfirst : (recv (await answer s c)).2.1 = some d := by
        rw [hread, if_neg hquiet, List.head?_append, Option.mem_def.mp hd]
        rfl
      rw [hfirst] at hresult hpaired
      rcases hbad : recvPacket d.bytes with e | packet
      · rfl
      · obtain ⟨hsame, -⟩ := hpaired packet (hresult.trans hbad)
        have htag : d.tag = s.sent := congrArg Datagram.tag (Option.some.inj hsame)
        omega
  · intro hclean packet hok
    rw [hresult] at hok
    by_cases hquiet : s.rxBuf = [] ∧ c.arrivals = 0
    · rw [hread, if_pos hquiet] at hok
      cases hok
    · rw [if_neg hquiet] at hread
      rw [hread] at hok ⊢
      cases hout : outstanding s with
      | nil =>
        rw [hout] at hok
        exact ⟨rfl, hok⟩
      | cons d rest =>
        rw [hout] at hok
        rcases hclean d (by rw [hout]; rfl) with hq | hbad
        · exact absurd hq hquiet
        · have hgood : recvPacket d.bytes = .ok packet := hok
          rw [hgood] at hbad
          cases hbad

theorem exchange_past {s : UdpLink τ} (h : Past s) (c : UdpCall) : Past (exchange answer s c).1 :=
  recv_past (await_past answer h c)

/-! ## Whole runs -/

/-- Requests and replies stay paired in exactly the runs in which no late reply reaches a later call. -/
theorem paired_iff (server : τ) (calls : List UdpCall) :
    (∀ x ∈ (exec (exchange answer) (connect server) calls).2, x.Paired) ↔
      Along (fun s c => some (exchange answer s c).1) Undisturbed (connect server) calls := by
  rw [forall_log_iff]
  refine along_congr_of_invariant Past (fun s c t hs _ ht => ?_)
    (fun s c hs => exchange_paired_iff answer hs c) (fun d hd => by cases hd) calls
  cases ht
  exact exchange_past answer hs c

/-- The PCM of a decode that no late reply disturbs is in the reply to its own request. -/
theorem decode_own {s : UdpLink τ} (h : Past s) (arrivals : Nat) (ambe : Option AmbeFrame)
    (hclean : Undisturbed s ⟨AmbeServer.decodeRequest ambe, arrivals⟩) (pcm : PcmFrame)
    (hok : (AmbeServer.decode (sendRecv answer arrivals) s ambe).2 = .ok pcm) :
    recvPacket (ownReply answer s (AmbeServer.decodeRequest ambe)).bytes = .ok (.audio pcm) := by
  have hpaired := (exchange_paired_iff answer h _).mpr hclean _ (List.mem_singleton.mpr rfl)
  exact (hpaired _ ((AmbeServer.decode_ok_iff _ s ambe pcm).mp hok)).2

def firstByte (_ : Unit) (request : List UInt8) : Unit × List UInt8 :=
  ((), buildAudio (.replicate 160 (request.getD 6 0).toUInt16.toInt16))

/-- The reply for the first frame comes after its timeout and answers the call for the second. -/
theorem late_reply_not_paired :
    ¬ (∀ x ∈ (exec (exchange firstByte) (connect ())
        [⟨buildAmbe (.replicate 9 7), 0⟩, ⟨buildAmbe (.replicate 9 8), 2⟩]).2, x.Paired) ∧
      (AmbeServer.decode (sendRecv firstByte 2)
        (AmbeServer.decode (sendRecv firstByte 0) (connect ()) (some (.replicate 9 7))).1
        (some (.replicate 9 8))).2 = .ok (.replicate 160 7) := by
  obtain ⟨n, hn⟩ := parse_buildAudio (.replicate 160 7)
  have hreply : recvPacket (firstByte () (buildAmbe (.replicate 9 7))).2 = .ok (.audio (.replicate 160 7)) :=
    recvPacket_of_parse (by rw [firstByte, length_buildAudio]; decide) hn
  constructor
  · rw [forall_log_iff]
    intro h
    have hpast : Past (exchange firstByte (connect ()) ⟨buildAmbe (.replicate 9 7), 0⟩).1 :=
      exchange_past firstByte (fun d hd => by cases hd) _
    have hclean := (exchange_paired_iff firstByte hpast _).mp (h.2 _ rfl).1
    rcases hclean ⟨0, (firstByte () (buildAmbe (.replicate 9 7))).2⟩ rfl with ⟨-, hquiet⟩ | hbad
    · cases hquiet
    · rw [hreply] at hbad
      cases hbad
  · rw [AmbeServer.decode_ok_iff, AmbeServer.decode_link]
    simp [sendRecv, await, arrive, sendRaw, recv, connect, ownReply, AmbeServer.decodeRequest, hreply]

end UdpDv

end DmrBridge
