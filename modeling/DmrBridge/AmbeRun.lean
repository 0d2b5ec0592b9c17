import DmrBridge.SoftBackend

/-!
# The loop of ambeserver

One backend, many peers. The peer that holds it is active for `exclusiveHold` after its last
datagram, and until then only a RESET takes the backend from it.
-/

open Run DmrBridge.Dv3000

namespace DmrBridge

variable {σ Peer : Type} [DecidableEq Peer]

namespace AmbeRun

def recvBuf : Nat := 4096
def exclusiveHold : Duration := 1000

/-- The control packets that `describe_control` names, with what its text shows. -/
inductive Description where
  | reset
  | ratep (rcws : List UInt8)
  | gain (inDb outDb : Int8)
  deriving DecidableEq

/-- Looks at single bytes: neither the length field nor the rest of the packet is checked. -/
def describeControl (buf : List UInt8) : Option Description :=
  if buf.length < 5 ∨ buf.getD 0 0 ≠ startByte ∨ buf.getD 3 0 ≠ typeControl then none
  else if buf.getD 4 0 = controlReset then some .reset
  else if buf.getD 4 0 = controlRatep ∧ 5 + 12 ≤ buf.length then some (.ratep ((buf.drop 5).take 12))
  else if buf.getD 4 0 = controlGain ∧ 5 + 2 ≤ buf.length then
    some (.gain (buf.getD 5 0).toInt8 (buf.getD 6 0).toInt8)
  else none

structure Server (σ Peer : Type) where
  backend : SoftBackend σ
  holder : Option (Peer × Instant)

/-- What `recv_from` returns, and the clock after it. -/
structure Arrival (Peer : Type) where
  peer : Peer
  datagram : List UInt8
  now : Instant
  deriving DecidableEq

def Arrival.pkt (a : Arrival Peer) : List UInt8 := a.datagram.take recvBuf

/-- Another peer holds the backend and is active. -/
def Arrival.foreign (a : Arrival Peer) (holder : Option (Peer × Instant)) : Bool :=
  match holder with
  | some (h, t) => h ≠ a.peer ∧ a.now - t < exclusiveHold
  | none => false

def accept (V : Vocoder σ) (s : Server σ Peer) (a : Arrival Peer) : Server σ Peer × List (Peer × List UInt8) :=
  let backend := if s.holder.map (·.1) = some a.peer then s.backend else s.backend.onTakeover V
  match backend.handle V a.pkt with
  | (backend, .ok (some resp)) => ({ backend, holder := some (a.peer, a.now) }, [(a.peer, resp)])
  | (backend, _) => ({ backend, holder := some (a.peer, a.now) }, [])

/-- One turn of the loop, with the replies it sends. -/
def step (V : Vocoder σ) (s : Server σ Peer) (a : Arrival Peer) : Server σ Peer × List (Peer × List UInt8) :=
  let is_reset := describeControl a.pkt = some .reset
  if ¬ is_reset ∧ a.foreign s.holder then (s, []) else accept V s a

def start (v : σ) (label : List UInt8) : Server σ Peer := { backend := .new v label, holder := none }

/-! ## Exclusivity -/

/-- The RESET of the parser, which the backend goes by. -/
def parsesAsReset (pkt : List UInt8) : Bool :=
  match parse pkt with
  | .ok (.control fieldId _, _) => fieldId = controlReset
  | _ => false

/-- A datagram that the holder must not notice. -/
def Intrusion (s : Server σ Peer) (a : Arrival Peer) : Prop :=
  a.foreign s.holder = true ∧ parsesAsReset a.pkt = false

instance (s : Server σ Peer) (a : Arrival Peer) : Decidable (Intrusion s a) :=
  inferInstanceAs (Decidable (_ ∧ _))

/-- The run without its intrusions. -/
def purge (V : Vocoder σ) (s : Server σ Peer) : List (Arrival Peer) → List (Arrival Peer)
  | [] => []
  | a :: as =>
    if Intrusion s a then purge V (step V s a).1 as else a :: purge V (step V s a).1 as

def repliesTo (p : Peer) (wire : List (Peer × List UInt8)) : List (List UInt8) :=
  (wire.filter (·.1 = p)).map (·.2)

def stepState (V : Vocoder σ) (s : Server σ Peer) (a : Arrival Peer) : Option (Server σ Peer) :=
  some (step V s a).1

structure Exclusive (V : Vocoder σ) (s : Server σ Peer) (arrivals : List (Arrival Peer)) : Prop where
  frame : Along (stepState V) (fun s a => Intrusion s a → (step V s a).1 = s) s arrivals
  replies : ∀ p, repliesTo p (exec (step V) s (purge V s arrivals)).2 = repliesTo p (exec (step V) s arrivals).2

/-- No intrusion looks like a RESET to the loop. -/
def SoundPeek (s : Server σ Peer) (a : Arrival Peer) : Prop :=
  Intrusion s a → describeControl a.pkt ≠ some .reset

theorem step_of_refused (V : Vocoder σ) {s : Server σ Peer} {a : Arrival Peer}
    (hpeek : describeControl a.pkt ≠ some .reset) (h : a.foreign s.holder = true) : step V s a = (s, []) := by
  rw [step, if_pos ⟨hpeek, h⟩]

theorem accept_holder (V : Vocoder σ) (s : Server σ Peer) (a : Arrival Peer) :
    (accept V s a).1.holder = some (a.peer, a.now) := by
  unfold accept
  dsimp only
  split <;> rfl

theorem foreign_ne {s : Server σ Peer} {a : Arrival Peer} (h : a.foreign s.holder = true) :
    s.holder ≠ some (a.peer, a.now) := by
  intro hholder
  simp [Arrival.foreign, hholder] at h

/-- An intrusion leaves the server alone exactly if the loop does not take it for a RESET. -/
theorem frame_iff (V : Vocoder σ) (s : Server σ Peer) (a : Arrival Peer) :
    (Intrusion s a → (step V s a).1 = s) ↔ SoundPeek s a := by
  refine imp_congr_right fun hintr => ?_
  constructor
  · intro hframe hpeek
    have hstep : step V s a = accept V s a := by
      rw [step, if_neg fun h => h.1 hpeek]
    rw [hstep] at hframe
    exact foreign_ne hintr.1 (by rw [← accept_holder V s a, hframe])
  · intro hpeek
    rw [step_of_refused V hpeek hintr.1]

theorem exec_purge (V : Vocoder σ) (s : Server σ Peer) (arrivals : List (Arrival Peer))
    (h : Along (stepState V) SoundPeek s arrivals) :
    exec (step V) s (purge V s arrivals) = exec (step V) s arrivals := by
  induction arrivals generalizing s with
  | nil => rfl
  | cons a as ih =>
    obtain ⟨hpeek, hrest⟩ := h
    have hih := ih (step V s a).1 (hrest _ rfl)
    by_cases hintr : Intrusion s a
    · have hstep := step_of_refused V (hpeek hintr) hintr.1
      rw [hstep] at hih
      rw [purge, if_pos hintr, exec, hstep, hih]
      rfl
    · rw [purge, if_neg hintr, exec, exec, hih]

theorem exclusive_iff (V : Vocoder σ) (v : σ) (label : List UInt8) (arrivals : List (Arrival Peer)) :
    Exclusive V (start v label) arrivals ↔ Along (stepState V) SoundPeek (start v label) arrivals := by
  constructor
  · intro h
    exact (along_congr (frame_iff V) _ arrivals).mp h.frame
  · intro h
    refine ⟨(along_congr (frame_iff V) _ arrivals).mpr h, fun p => ?_⟩
    rw [exec_purge V _ arrivals h]

/-- Its length field says that there is no payload, so it does not parse. -/
def hollowReset : List UInt8 := [startByte, 0x00, 0x00, typeControl, controlReset]

/-- Peer 1 opens a session, peer 2 sends the hollow RESET, and peer 1 goes on when it may. -/
def hijack : List (Arrival Nat) :=
  [⟨1, buildReset, 0⟩, ⟨1, buildRatepDmr, 20⟩, ⟨2, hollowReset, 40⟩, ⟨1, buildAudio (.replicate 160 0), 1100⟩]

/-- The backend went to peer 2 and lost the rate of peer 1, whose audio gets no answer any more. -/
theorem not_exclusive_hijack :
    repliesTo 1 (exec (step SoftBackend.repeatVocoder) (start 0 [])
        (purge SoftBackend.repeatVocoder (start 0 []) hijack)).2 ≠
      repliesTo 1 (exec (step SoftBackend.repeatVocoder) (start 0 []) hijack).2 ∧
    ¬ Exclusive SoftBackend.repeatVocoder (start 0 []) hijack := by
  have hreplies : repliesTo 1 (exec (step SoftBackend.repeatVocoder) (start 0 [])
      (purge SoftBackend.repeatVocoder (start 0 []) hijack)).2 ≠
        repliesTo 1 (exec (step SoftBackend.repeatVocoder) (start 0 []) hijack).2 := by
    decide +kernel
  exact ⟨hreplies, fun h => hreplies (h.replies 1)⟩

end AmbeRun

end DmrBridge
