import DmrBridge.SoftBackend

/-!
# The rate guard of the software backend

Its vocoder runs only for a client that has agreed on the DMR rate and on no other since the last
RESET or takeover. The two flags are compared with the history of the exchanges.
-/

open Run DmrBridge.Dv3000

namespace DmrBridge

variable {σ : Type}

namespace SoftBackend

inductive Input where
  | datagram (request : List UInt8)
  | takeover
  deriving DecidableEq

abbrev Reply := Except VocoderError (Option (List UInt8))

structure Exchange where
  input : Input
  reply : Reply

def Exchange.sent (e : Exchange) : List (List UInt8) := (e.reply.toOption.bind id).toList

def serve (V : Vocoder σ) (b : SoftBackend σ) : Input → SoftBackend σ × List Exchange
  | .datagram request => ((handle V b request).1, [⟨.datagram request, (handle V b request).2⟩])
  | .takeover => (onTakeover V b, [⟨.takeover, .ok none⟩])

/-! ## The history -/

def Input.packet : Input → Option Packet
  | .datagram request => (parse request).toOption.map (·.1)
  | .takeover => none

def Input.restarts : Input → Bool
  | .takeover => true
  | .datagram request =>
    match (Input.datagram request).packet with
    | some (.control fieldId _) => fieldId = controlReset
    | _ => false

def Input.ratep (i : Input) (data : List UInt8) : Prop := i.packet = some (.control controlRatep data)

/-- The exchanges since the most recent RESET or takeover. -/
def sinceRestart (history : List Exchange) : List Exchange :=
  history.foldl (fun recent e => if e.input.restarts then [] else recent ++ [e]) []

def RateAcked (recent : List Exchange) : Prop :=
  ∃ e ∈ recent, e.input.ratep ratepDmr ∧ e.reply = .ok (some (buildControlAck controlRatep ackOk))

def OtherRate (recent : List Exchange) : Prop :=
  ∃ e ∈ recent, ∃ data, e.input.ratep data ∧ data ≠ ratepDmr

theorem sinceRestart_snoc_restart {history : List Exchange} {e : Exchange} (h : e.input.restarts) :
    sinceRestart (history ++ [e]) = [] := by
  simp [sinceRestart, List.foldl_append, h]

theorem sinceRestart_snoc {history : List Exchange} {e : Exchange} (h : ¬ e.input.restarts) :
    sinceRestart (history ++ [e]) = sinceRestart history ++ [e] := by
  simp [sinceRestart, List.foldl_append, h]

theorem rateAcked_snoc (recent : List Exchange) (e : Exchange) :
    RateAcked (recent ++ [e]) ↔ RateAcked recent ∨
      (e.input.ratep ratepDmr ∧ e.reply = .ok (some (buildControlAck controlRatep ackOk))) := by
  simp [RateAcked, or_and_right, exists_or]

theorem otherRate_snoc (recent : List Exchange) (e : Exchange) :
    OtherRate (recent ++ [e]) ↔ OtherRate recent ∨ ∃ data, e.input.ratep data ∧ data ≠ ratepDmr := by
  simp [OtherRate, or_and_right, exists_or]

/-! ## One datagram -/

theorem packet_eq_some_iff {request : List UInt8} {packet : Packet} :
    (Input.datagram request).packet = some packet ↔ ∃ n, parse request = .ok (packet, n) := by
  unfold Input.packet
  rcases hparse : parse request with e | ⟨p, n⟩
  · simp [hparse, Except.toOption]
  · simp [hparse, Except.toOption]

theorem packet_eq_none_iff {request : List UInt8} :
    (Input.datagram request).packet = none ↔ ∃ e, parse request = .error e := by
  unfold Input.packet
  rcases hparse : parse request with e | ⟨p, n⟩
  · simp [hparse, Except.toOption]
  · simp [hparse, Except.toOption]

theorem restarts_datagram {request : List UInt8} :
    (Input.datagram request).restarts = true ↔
      ∃ data, (Input.datagram request).packet = some (.control controlReset data) := by
  dsimp only [Input.restarts]
  split
  · rename_i hpacket
    simp [hpacket]
  · rename_i hpacket
    simp only [Bool.false_eq_true, false_iff, not_exists]
    exact fun data hdata => hpacket _ data hdata

theorem handleGain_flags (V : Vocoder σ) (b : SoftBackend σ) (data : List UInt8) :
    (handleGain V b data).1.ratepAcked = b.ratepAcked ∧ (handleGain V b data).1.poisoned = b.poisoned := by
  unfold handleGain
  split
  · split <;> exact ⟨rfl, rfl⟩
  · exact ⟨rfl, rfl⟩

/-- Only a RATEP moves the flags. -/
theorem handlePacket_flags (V : Vocoder σ) (b : SoftBackend σ) {packet : Packet}
    (h : ∀ data, packet ≠ .control controlRatep data) :
    (handlePacket V b packet).1.ratepAcked = b.ratepAcked ∧ (handlePacket V b packet).1.poisoned = b.poisoned := by
  unfold handlePacket
  cases packet with
  | control fieldId data =>
    dsimp only
    rw [if_neg fun he => h data (by rw [he])]
    split
    · exact handleGain_flags V b data
    split <;> exact ⟨rfl, rfl⟩
  | ambeBits bits data => exact ⟨rfl, rfl⟩
  | audio pcm | ambe frame =>
    dsimp only
    split
    · exact ⟨rfl, rfl⟩
    split <;> exact ⟨rfl, rfl⟩

theorem setGain_log (V : Vocoder σ) (s : σ × List VocoderCall) (inDb outDb : Db) :
    (V.logged.setGain s inDb outDb).1.2 = s.2 := rfl

theorem handlePacket_log (V : Vocoder σ) (b : SoftBackend (σ × List VocoderCall)) (packet : Packet)
    (h : b.ratepAcked = false) : (handlePacket V.logged b packet).1.vocoder.2 = b.vocoder.2 := by
  unfold handlePacket
  cases packet with
  | control fieldId data =>
    dsimp only
    split
    · split <;> rfl
    split
    · unfold handleGain
      split
      · rename_i inDb outDb _
        have hlog := setGain_log V b.vocoder inDb.toInt8.toInt outDb.toInt8.toInt
        split
        all_goals
          rename_i hgain
          rw [hgain] at hlog
          exact hlog
      · rfl
    split <;> rfl
  | ambeBits bits data => rfl
  | audio pcm | ambe frame =>
    dsimp only
    rw [if_pos h]

/-! ## The flags and the history -/

structure Guarded (b : SoftBackend σ) (history : List Exchange) : Prop where
  acked : b.ratepAcked = true ↔ RateAcked (sinceRestart history)
  poisoned : b.poisoned = true ↔ OtherRate (sinceRestart history)

theorem Guarded.restart {b : SoftBackend σ} {history : List Exchange} {e : Exchange} (h : e.input.restarts)
    (hacked : b.ratepAcked = false) (hpoisoned : b.poisoned = false) : Guarded b (history ++ [e]) := by
  constructor
  · simp [sinceRestart_snoc_restart h, hacked, RateAcked]
  · simp [sinceRestart_snoc_restart h, hpoisoned, OtherRate]

/-- An exchange that is no RATEP of a session that goes on. -/
theorem Guarded.keep {b b' : SoftBackend σ} {history : List Exchange} {e : Exchange} (hg : Guarded b history)
    (h : ¬ e.input.restarts) (hratep : ∀ data, ¬ e.input.ratep data) (hacked : b'.ratepAcked = b.ratepAcked)
    (hpoisoned : b'.poisoned = b.poisoned) : Guarded b' (history ++ [e]) := by
  constructor
  · rw [sinceRestart_snoc h, rateAcked_snoc, hacked, hg.acked]
    simp [hratep]
  · rw [sinceRestart_snoc h, otherRate_snoc, hpoisoned, hg.poisoned]
    simp [hratep]

theorem ratep_unique {i : Input} {data data' : List UInt8} (h : i.ratep data) : i.ratep data' ↔ data' = data := by
  unfold Input.ratep at h ⊢
  rw [h]
  simp [eq_comm]

theorem ratep_not_restarts {request data : List UInt8} (h : (Input.datagram request).ratep data) :
    ¬ (Input.datagram request).restarts := by
  rw [restarts_datagram]
  rintro ⟨data', hreset⟩
  rw [Input.ratep, hreset] at h
  simp [controlReset, controlRatep] at h

theorem Guarded.ratep {V : Vocoder σ} {b : SoftBackend σ} {history : List Exchange} {request data : List UInt8}
    (hg : Guarded b history) (h : (Input.datagram request).ratep data) :
    Guarded (handle V b request).1 (history ++ [⟨.datagram request, (handle V b request).2⟩]) := by
  obtain ⟨n, hn⟩ := packet_eq_some_iff.mp h
  have hrestart := ratep_not_restarts h
  have hreset : ∀ d, Packet.control controlRatep data ≠ .control controlReset d := by
    simp [controlReset, controlRatep]
  have hunique : ∀ d, (Input.datagram request).ratep d ↔ d = data := fun d => ratep_unique h
  by_cases hpoison : b.poisoned = true
  · -- A poisoned session does not look at the rate any more.
    rw [handle_of_poisoned hn hreset hpoison]
    constructor
    · rw [sinceRestart_snoc hrestart, rateAcked_snoc, hg.acked]
      simp
    · rw [sinceRestart_snoc hrestart, otherRate_snoc]
      simp [hpoison, hg.poisoned.mp hpoison]
  · rw [handle_of_parse hn hreset (by simpa using hpoison), handlePacket, if_pos rfl]
    have hclean : ¬ OtherRate (sinceRestart history) := fun ho => hpoison (hg.poisoned.mpr ho)
    by_cases hdmr : data = ratepDmr
    · rw [if_pos hdmr]
      constructor
      · rw [sinceRestart_snoc hrestart, rateAcked_snoc]
        simp [hunique, hdmr]
      · rw [sinceRestart_snoc hrestart, otherRate_snoc]
        simp [hunique, hdmr, hpoison, hclean]
    · rw [if_neg hdmr]
      constructor
      · rw [sinceRestart_snoc hrestart, rateAcked_snoc, hg.acked]
        simp [buildControlAck, ackReject, ackOk, Dv3000.frame]
      · rw [sinceRestart_snoc hrestart, otherRate_snoc]
        simp [hunique, hdmr]

theorem guarded_step (V : Vocoder σ) (b : SoftBackend σ) (history : List Exchange) (i : Input)
    (hg : Guarded b history) : Guarded (serve V b i).1 (history ++ (serve V b i).2) := by
  cases i with
  | takeover => exact .restart rfl rfl rfl
  | datagram request =>
    dsimp only [serve]
    rcases hparse : parse request with e | ⟨packet, n⟩
    · have hnone : (Input.datagram request).packet = none := packet_eq_none_iff.mpr ⟨e, hparse⟩
      rw [handle_of_error hparse]
      refine hg.keep ?_ ?_ rfl rfl
      · simp [restarts_datagram, hnone]
      · simp [Input.ratep, hnone]
    have hsome : (Input.datagram request).packet = some packet := packet_eq_some_iff.mpr ⟨n, hparse⟩
    by_cases hreset : ∃ data, packet = .control controlReset data
    · obtain ⟨data, rfl⟩ := hreset
      rw [handle_of_reset hparse]
      exact .restart (restarts_datagram.mpr ⟨data, hsome⟩) rfl rfl
    by_cases hratep : ∃ data, packet = .control controlRatep data
    · obtain ⟨data, rfl⟩ := hratep
      exact hg.ratep hsome
    have hreset' : ∀ data, packet ≠ .control controlReset data := fun data he => hreset ⟨data, he⟩
    have hratep' : ∀ data, packet ≠ .control controlRatep data := fun data he => hratep ⟨data, he⟩
    have hflags : (handle V b request).1.ratepAcked = b.ratepAcked ∧ (handle V b request).1.poisoned = b.poisoned := by
      by_cases hpoison : b.poisoned = true
      · rw [handle_of_poisoned hparse hreset' hpoison]
        exact ⟨rfl, rfl⟩
      · rw [handle_of_parse hparse hreset' (by simpa using hpoison)]
        exact handlePacket_flags V b hratep'
    refine hg.keep ?_ ?_ hflags.1 hflags.2
    · rw [restarts_datagram]
      rintro ⟨data, hdata⟩
      exact hreset' data (Option.some.inj (hsome.symm.trans hdata))
    · intro data hdata
      exact hratep' data (Option.some.inj (hsome.symm.trans hdata))

theorem guarded_run (V : Vocoder σ) (v : σ) (label : List UInt8) (inputs : List Input) :
    Guarded (exec (serve V) (new v label) inputs).1 (exec (serve V) (new v label) inputs).2 := by
  refine exec_invariant Guarded (fun b history i => guarded_step V b history i) ?_ inputs
  constructor
  · simp [new, sinceRestart, RateAcked]
  · simp [new, sinceRestart, OtherRate]

/-! ## The guard -/

/-- What the next input can do after a history. -/
structure GuardsRate (V : Vocoder σ) (b : SoftBackend (σ × List VocoderCall)) (history : List Exchange)
    (i : Input) : Prop where
  vocoder : (serve V.logged b i).1.vocoder.2 ≠ b.vocoder.2 →
    RateAcked (sinceRestart history) ∧ ¬ OtherRate (sinceRestart history)
  silent : OtherRate (sinceRestart history) → ¬ i.restarts → serve V.logged b i = (b, [⟨i, .ok none⟩])
  oneReply : ((serve V.logged b i).2.flatMap Exchange.sent).length ≤ 1
  unparsed : ∀ request, i = .datagram request → i.packet = none → serve V.logged b i = (b, [⟨i, .ok none⟩])

theorem serve_of_poisoned (V : Vocoder σ) {b : SoftBackend σ} {i : Input} (hpoison : b.poisoned = true)
    (h : ¬ i.restarts) : serve V b i = (b, [⟨i, .ok none⟩]) := by
  cases i with
  | takeover => exact absurd rfl h
  | datagram request =>
    dsimp only [serve]
    rcases hparse : parse request with e | ⟨packet, n⟩
    · rw [handle_of_error hparse]
    · have hreset : ∀ data, packet ≠ .control controlReset data := fun data he =>
        h (restarts_datagram.mpr ⟨data, packet_eq_some_iff.mpr ⟨n, by rw [hparse, he]⟩⟩)
      rw [handle_of_poisoned hparse hreset hpoison]

/-- The vocoder is not called on a poisoned session, nor before the rate is acknowledged. -/
theorem serve_log (V : Vocoder σ) {b : SoftBackend (σ × List VocoderCall)} {i : Input}
    (h : (serve V.logged b i).1.vocoder.2 ≠ b.vocoder.2) : b.ratepAcked = true ∧ b.poisoned = false := by
  cases i with
  | takeover => exact absurd rfl h
  | datagram request =>
    dsimp only [serve] at h
    rcases hparse : parse request with e | ⟨packet, n⟩
    · exact absurd (by rw [handle_of_error hparse]) h
    by_cases hreset : ∃ data, packet = .control controlReset data
    · obtain ⟨data, rfl⟩ := hreset
      exact absurd (by rw [handle_of_reset hparse]; rfl) h
    have hreset' : ∀ data, packet ≠ .control controlReset data := fun data he => hreset ⟨data, he⟩
    have hpoison : b.poisoned = false := by
      by_contra hp
      exact h (by rw [handle_of_poisoned hparse hreset' (by simpa using hp)])
    rw [handle_of_parse hparse hreset' hpoison] at h
    refine ⟨?_, hpoison⟩
    by_contra hacked
    exact h (handlePacket_log V b packet (by simpa using hacked))

theorem guards_rate (V : Vocoder σ) (v : σ) (label : List UInt8) (inputs : List Input) (i : Input) :
    GuardsRate V (exec (serve V.logged) (new (v, []) label) inputs).1
      (exec (serve V.logged) (new (v, []) label) inputs).2 i := by
  have hg := guarded_run V.logged (v, []) label inputs
  generalize exec (serve V.logged) (new (v, []) label) inputs = r at hg
  constructor
  · intro h
    obtain ⟨hacked, hpoison⟩ := serve_log V h
    refine ⟨hg.acked.mp hacked, fun ho => ?_⟩
    simp [hg.poisoned.mpr ho] at hpoison
  · intro ho h
    exact serve_of_poisoned V.logged (hg.poisoned.mpr ho) h
  · cases i with
    | takeover => simp [serve, Exchange.sent, Except.toOption]
    | datagram request =>
      simp only [serve, List.flatMap_cons, List.flatMap_nil, List.append_nil, Exchange.sent]
      exact Option.length_toList_le
  · rintro request rfl hnone
    obtain ⟨e, he⟩ := packet_eq_none_iff.mp hnone
    rw [serve, handle_of_error he]

end SoftBackend

end DmrBridge
