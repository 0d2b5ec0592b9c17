import DmrBridge.Rx
import DmrBridge.Lib.Run

/-!
# Lost and late packets of a stream

The machine counts a gap from the voice packet before, whatever that was. An accounting that is not
to count a position twice has to count from the furthest packet.
-/

open Run

namespace DmrBridge

variable {σ φ : Type}

/-! ## What the machine reports -/

/-- A voice packet that `on_dmrd` takes for the stream. -/
structure IsVoice (config : VoiceConfig) (streamId : UInt32) (pkt : Dmrd) : Prop where
  matched : matchesConfig pkt config = true
  stream : pkt.streamId = streamId
  frameType : pkt.frameType ≠ .dataSync

/-- The furthest packet accepted so far, and its place in the stream. The first packet has place 0. -/
structure Furthest where
  seq : UInt8
  position : Int
  deriving DecidableEq

/-- A repeated packet, or one behind the furthest. -/
def isLate (furthest : Option Furthest) (seq : UInt8) : Bool := furthest.any fun f => 128 ≤ seq - (f.seq + 1)

def positionOf (furthest : Option Furthest) (seq : UInt8) : Int :=
  match furthest with
  | none => 0
  | some f => f.position + 1 + (seq - (f.seq + 1)).toNat - if 128 ≤ seq - (f.seq + 1) then 256 else 0

def accept (furthest : Option Furthest) (seq : UInt8) : Option Furthest :=
  if isLate furthest seq then furthest else some ⟨seq, positionOf furthest seq⟩

/-- The lost-frame decodes of a gap. None is made on a full channel, or for a gap taken as a boundary. -/
def lostFrames (env : Env) (gap : UInt8) : Nat :=
  if env.audioFull ∨ gap > gapBoundaryPackets then 0 else 3 * gap.toNat

/-- One voice packet and the gap reported with it. -/
structure Account where
  late : Bool
  position : Int
  drops : Nat
  lostFrames : Nat

def Account.report (a : Account) : Nat × Nat := (a.drops, a.lostFrames)

/-- The positions reported missing: the `drops` positions before the packet. -/
def Account.missing (a : Account) : List Int := (List.range a.drops).map fun i : Nat => a.position - 1 - i

def account (P : Params σ φ) (furthest : Option Furthest) (m : Machine σ φ) (env : Env) (pkt : Dmrd) : Account :=
  let e := enterVoice m.state pkt env.now
  { late := isLate furthest pkt.seq, position := positionOf furthest pkt.seq
    drops := (boundaryOutputs P pkt e).count (.stats (.drop .dmrToFm)), lostFrames := lostFrames env e.gap }

def accounts (P : Params σ φ) (furthest : Option Furthest) (m : Machine σ φ) : List (Env × Dmrd) → List Account
  | [] => []
  | (env, pkt) :: pkts =>
    account P furthest m env pkt :: accounts P (accept furthest pkt.seq) (onDmrd P m env pkt).1 pkts

def dropLate (furthest : Option Furthest) : List (Env × Dmrd) → List (Env × Dmrd)
  | [] => []
  | (env, pkt) :: pkts =>
    if isLate furthest pkt.seq then dropLate furthest pkts
    else (env, pkt) :: dropLate (accept furthest pkt.seq) pkts

/-- The voice packets of a stream, from its first on. -/
structure LossAccounting (P : Params σ φ) (m : Machine σ φ) (pkts : List (Env × Dmrd)) : Prop where
  remaining : ((accounts P none m pkts).filter (!·.late)).map Account.report =
    (accounts P none m (dropLate none pkts)).map Account.report
  late : ∀ a ∈ accounts P none m pkts, a.late = true → a.drops = 0 ∧ a.lostFrames = 0
  received : (accounts P none m pkts).Pairwise fun a b => a.position ∉ b.missing
  once : (accounts P none m pkts).Pairwise fun a b => ∀ p ∈ a.missing, p ∉ b.missing

/-! ## The condition -/

/-- The voice packet before, and the furthest. -/
structure Track where
  previous : Option UInt8
  furthest : Option Furthest

def Track.next (t : Track) (seq : UInt8) : Option Track := some ⟨some seq, accept t.furthest seq⟩

/-- Once a packet was behind the furthest, the next one is late too, and at most one past it. -/
def Track.InStep (t : Track) (seq : UInt8) : Prop :=
  t.previous = t.furthest.map (·.seq) ∨
    isLate t.furthest seq = true ∧ ∀ p ∈ t.previous, 128 ≤ seq - (p + 1) ∨ seq = p + 1

/-! ## One packet -/

/-- The last voice `seq` of the stream, if the machine is in its call. -/
def heard (s : PttState) (streamId : UInt32) : Option UInt8 :=
  match s with
  | .rx call => if call.streamId = streamId then call.lastSeq else none
  | _ => none

def gapAfter (previous : Option UInt8) (seq : UInt8) : UInt8 := previous.elim 0 (seqGap · seq)

theorem enterVoice_gap (s : PttState) (pkt : Dmrd) (now : Instant) :
    (enterVoice s pkt now).gap = gapAfter (heard s pkt.streamId) pkt.seq := by
  unfold enterVoice heard
  cases s with
  | rx call =>
    by_cases hstream : call.streamId = pkt.streamId
    · simp [hstream, gapAfter]
    · simp [hstream, gapAfter]
  | _ => rfl

theorem heard_enterVoice (s : PttState) (pkt : Dmrd) (now : Instant) :
    heard (.rx (enterVoice s pkt now).call) pkt.streamId = some pkt.seq := by
  unfold enterVoice heard
  cases s with
  | rx call =>
    by_cases hstream : call.streamId = pkt.streamId
    · simp [hstream]
    · simp [hstream, newRxCall]
  | _ => simp [newRxCall]

/-- No other boundary output is a Drop. -/
theorem count_boundaryOutputs (P : Params σ φ) (pkt : Dmrd) (e : VoiceEntry) :
    (boundaryOutputs P pkt e).count (.stats (.drop .dmrToFm)) = e.gap.toNat := by
  have hmeta : (emitCallMetadata P pkt).count (.stats (.drop .dmrToFm)) = 0 := by
    unfold emitCallMetadata
    split <;> rfl
  obtain ⟨call, prior, start, gap⟩ := e
  cases prior with
  | none => cases start <;> simp [boundaryOutputs, hmeta, rxCallStart]
  | some sid => cases start <;> simp [boundaryOutputs, hmeta, rxCallStart, rxCallEnd]

theorem onDmrd_voice {P : Params σ φ} {m : Machine σ φ} {streamId : UInt32} {pkt : Dmrd} (env : Env)
    (hgw : P.config.gateway ≠ .fmToDmr) (hm : m.state.isTx = false) (h : IsVoice P.config streamId pkt) :
    onDmrd P m env pkt = onVoice P m env pkt := by
  have hframe := h.frameType
  unfold onDmrd
  rw [if_neg hgw, if_neg (by simp [h.matched]), if_neg (by simp [hm])]
  cases hft : pkt.frameType with
  | dataSync => exact absurd hft hframe
  | voice | voiceSync => rfl

/-! ## The sequence numbers alone -/

def entry (t : Track) (env : Env) (seq : UInt8) : Account :=
  { late := isLate t.furthest seq, position := positionOf t.furthest seq
    drops := (gapAfter t.previous seq).toNat, lostFrames := lostFrames env (gapAfter t.previous seq) }

def ledger (t : Track) : List (Env × Dmrd) → List Account
  | [] => []
  | (env, pkt) :: pkts => entry t env pkt.seq :: ledger ⟨some pkt.seq, accept t.furthest pkt.seq⟩ pkts

theorem accounts_eq_ledger {P : Params σ φ} {m : Machine σ φ} {streamId : UInt32} {t : Track}
    {pkts : List (Env × Dmrd)} (hgw : P.config.gateway ≠ .fmToDmr) (hm : m.state.isTx = false)
    (hheard : heard m.state streamId = t.previous) (hpkts : ∀ p ∈ pkts, IsVoice P.config streamId p.2) :
    accounts P t.furthest m pkts = ledger t pkts := by
  induction pkts generalizing m t with
  | nil => rfl
  | cons p pkts ih =>
    obtain ⟨env, pkt⟩ := p
    have hvoice := hpkts _ List.mem_cons_self
    obtain rfl := hvoice.stream
    have hgap := enterVoice_gap m.state pkt env.now
    rw [hheard] at hgap
    have hrest := ih (m := (onDmrd P m env pkt).1) (t := ⟨some pkt.seq, accept t.furthest pkt.seq⟩)
      (by rw [onDmrd_voice env hgw hm hvoice]; rfl)
      (by rw [onDmrd_voice env hgw hm hvoice]; exact heard_enterVoice m.state pkt env.now)
      fun q hq => hpkts q (List.mem_cons_of_mem _ hq)
    rw [accounts, ledger, hrest, account, entry, count_boundaryOutputs, hgap]

/-- The gap that the furthest packet leaves. -/
def expectedGap (furthest : Option Furthest) (seq : UInt8) : UInt8 :=
  if isLate furthest seq then 0 else furthest.elim 0 fun f => seq - (f.seq + 1)

/-- The previous packet is the furthest, or less than half the numbers behind it. -/
def Track.Behind (t : Track) : Prop :=
  t.previous = none ∧ t.furthest = none ∨ ∃ p f, t.previous = some p ∧ t.furthest = some f ∧ f.seq - p < 128

theorem distance_add (p f q : UInt8) : (q - (p + 1)).toNat = ((q - (f + 1)).toNat + (f - p).toNat) % 256 := by
  simp only [UInt8.toNat_sub, UInt8.toNat_add]
  have hone : (1 : UInt8).toNat = 1 := rfl
  have hp := p.toNat_lt
  have hf := f.toNat_lt
  have hq := q.toNat_lt
  omega

theorem distance_self (p f : UInt8) : (p - (f + 1)).toNat = 255 - (f - p).toNat := by
  simp only [UInt8.toNat_sub, UInt8.toNat_add]
  have hone : (1 : UInt8).toNat = 1 := rfl
  have hp := p.toNat_lt
  have hf := f.toNat_lt
  omega

theorem sub_eq_zero_iff (p f : UInt8) : (f - p).toNat = 0 ↔ p = f := by
  rw [← UInt8.toNat_inj, UInt8.toNat_sub]
  have hp := p.toNat_lt
  have hf := f.toNat_lt
  omega

theorem Track.Behind.next {t : Track} (h : t.Behind) (seq : UInt8) :
    Track.Behind ⟨some seq, accept t.furthest seq⟩ := by
  unfold accept
  by_cases hlate : isLate t.furthest seq = true
  · rw [if_pos hlate]
    rcases h with ⟨-, hnone⟩ | ⟨p, f, -, hf, -⟩
    · simp [hnone, isLate] at hlate
    · rw [hf] at hlate ⊢
      refine .inr ⟨seq, f, rfl, rfl, ?_⟩
      have hdist := distance_self seq f.seq
      simp only [isLate, Option.any_some, decide_eq_true_eq, UInt8.le_iff_toNat_le] at hlate
      rw [UInt8.lt_iff_toNat_lt]
      have h128 : (128 : UInt8).toNat = 128 := rfl
      omega
  · rw [if_neg hlate]
    exact .inr ⟨seq, _, rfl, rfl, by simp⟩

theorem Track.Behind.gap_iff {t : Track} (h : t.Behind) (seq : UInt8) :
    gapAfter t.previous seq = expectedGap t.furthest seq ↔ t.InStep seq := by
  unfold Track.InStep
  rcases h with ⟨hp, hf⟩ | ⟨p, f, hp, hf, hbehind⟩
  · simp [hp, hf, gapAfter, expectedGap]
  · have hdist := distance_add p f.seq seq
    have hzero := sub_eq_zero_iff p f.seq
    have hsucc : (seq - (p + 1)).toNat = 0 ↔ p + 1 = seq := sub_eq_zero_iff (p + 1) seq
    have h128 : (128 : UInt8).toNat = 128 := rfl
    have hone : (1 : UInt8).toNat = 1 := rfl
    have hx := (seq - (f.seq + 1)).toNat_lt
    rw [UInt8.lt_iff_toNat_lt] at hbehind
    simp only [hp, hf, gapAfter, expectedGap, isLate, Option.elim_some, Option.any_some, Option.map_some, seqGap,
      decide_eq_true_eq, Option.some.injEq, Option.mem_def, forall_eq']
    simp only [← UInt8.toNat_inj, ← hzero, UInt8.le_iff_toNat_le, UInt8.lt_iff_toNat_lt, h128, hone] at hsucc ⊢
    rw [eq_comm (a := seq.toNat), ← hsucc]
    have hnone : (0 : UInt8).toNat = 0 := rfl
    split <;> split <;> omega

/-! ## Whole sequences -/

def expected (furthest : Option Furthest) : List (Env × Dmrd) → List (Nat × Nat)
  | [] => []
  | (env, pkt) :: pkts =>
    if isLate furthest pkt.seq then expected furthest pkts
    else ((expectedGap furthest pkt.seq).toNat, lostFrames env (expectedGap furthest pkt.seq)) ::
      expected (accept furthest pkt.seq) pkts

theorem accept_of_onTime {furthest : Option Furthest} {seq : UInt8} (h : ¬ isLate furthest seq = true) :
    (accept furthest seq).map (·.seq) = some seq := by
  rw [accept, if_neg h]
  rfl

/-- Without late packets the previous packet is the furthest. -/
theorem ledger_dropLate (t : Track) (h : t.previous = t.furthest.map (·.seq)) (hbehind : t.Behind)
    (pkts : List (Env × Dmrd)) :
    (ledger t (dropLate t.furthest pkts)).map Account.report = expected t.furthest pkts := by
  induction pkts generalizing t with
  | nil => rfl
  | cons p pkts ih =>
    obtain ⟨env, pkt⟩ := p
    rw [dropLate, expected]
    by_cases hlate : isLate t.furthest pkt.seq = true
    · rw [if_pos hlate, if_pos hlate]
      exact ih t h hbehind
    · have hgap := (hbehind.gap_iff pkt.seq).mpr (.inl h)
      have hrest := ih ⟨some pkt.seq, accept t.furthest pkt.seq⟩ (accept_of_onTime hlate).symm (hbehind.next pkt.seq)
      rw [if_neg hlate, if_neg hlate, ledger, List.map_cons, hrest, Account.report, entry, hgap]

theorem report_eq_iff (env : Env) (g g' : UInt8) :
    (g.toNat, lostFrames env g) = (g'.toNat, lostFrames env g') ↔ g = g' := by
  constructor
  · intro h
    exact UInt8.toNat_inj.mp (congrArg Prod.fst h)
  · rintro rfl
    rfl

theorem ledger_iff (t : Track) (hbehind : t.Behind) (pkts : List (Env × Dmrd)) :
    (((ledger t pkts).filter (!·.late)).map Account.report = expected t.furthest pkts ∧
        ∀ a ∈ ledger t pkts, a.late = true → a.drops = 0 ∧ a.lostFrames = 0) ↔
      Along Track.next Track.InStep t (pkts.map (·.2.seq)) := by
  induction pkts generalizing t with
  | nil => simp [ledger, expected, Along]
  | cons p pkts ih =>
    obtain ⟨env, pkt⟩ := p
    have hih := ih _ (hbehind.next pkt.seq)
    have hgap := hbehind.gap_iff pkt.seq
    have halong : Along Track.next Track.InStep t (((env, pkt) :: pkts).map (·.2.seq)) ↔
        t.InStep pkt.seq ∧
          Along Track.next Track.InStep ⟨some pkt.seq, accept t.furthest pkt.seq⟩ (pkts.map (·.2.seq)) := by
      simp [Along, Track.next]
    rw [halong, ← hgap, ← hih, ledger, expected]
    by_cases hlate : isLate t.furthest pkt.seq = true
    · have hzero : (gapAfter t.previous pkt.seq).toNat = 0 ∧ lostFrames env (gapAfter t.previous pkt.seq) = 0 ↔
          gapAfter t.previous pkt.seq = 0 := by
        constructor
        · intro h
          exact UInt8.toNat_inj.mp h.1
        · intro h
          simp [h, lostFrames]
      have haccept : accept t.furthest pkt.seq = t.furthest := if_pos hlate
      rw [if_pos hlate, List.filter_cons_of_neg (by simp [entry, hlate]), List.forall_mem_cons, expectedGap,
        if_pos hlate, haccept, ← hzero]
      simp only [entry, hlate, true_imp_iff]
      tauto
    · rw [if_neg hlate, List.filter_cons_of_pos (by simpa [entry] using hlate), List.map_cons, List.cons.injEq,
        List.forall_mem_cons, ← report_eq_iff env]
      simp only [entry, Account.report, hlate, Bool.false_eq_true, false_imp_iff, true_and, and_assoc]

/-- What a packet reports missing lies between the furthest packet before it and the one after it. -/
theorem entry_bounds {t : Track} {seq : UInt8} (env : Env)
    (hgap : gapAfter t.previous seq = expectedGap t.furthest seq) :
    ∃ f, accept t.furthest seq = some f ∧ (entry t env seq).position ≤ f.position ∧
      (∀ g ∈ t.furthest, g.position ≤ f.position) ∧
      ∀ x ∈ (entry t env seq).missing, x < f.position ∧ ∀ g ∈ t.furthest, g.position < x := by
  have hdrops : (entry t env seq).drops = (expectedGap t.furthest seq).toNat := by rw [entry, hgap]
  cases hf : t.furthest with
  | none =>
    exact ⟨⟨seq, 0⟩, rfl, by simp [entry, positionOf, hf], by simp,
      by simp [Account.missing, hdrops, hf, expectedGap]⟩
  | some f =>
    rw [hf] at hdrops
    have hdelta := (seq - (f.seq + 1)).toNat_lt
    have h128 : (128 : UInt8).toNat = 128 := rfl
    by_cases hlate : isLate (some f) seq = true
    · have hle : 128 ≤ seq - (f.seq + 1) := by simpa [isLate] using hlate
      refine ⟨f, if_pos hlate, ?_, by simp, by simp [Account.missing, hdrops, expectedGap, hlate]⟩
      simp only [entry, hf, positionOf, if_pos hle]
      omega
    · have hlt : ¬ 128 ≤ seq - (f.seq + 1) := by simpa [isLate] using hlate
      have hposition : positionOf (some f) seq = f.position + 1 + (seq - (f.seq + 1)).toNat := by
        simp only [positionOf, if_neg hlt, Int.sub_zero]
      refine ⟨⟨seq, positionOf (some f) seq⟩, if_neg hlate, by simp [entry, hf], ?_, ?_⟩
      · intro g hg
        cases hg
        dsimp only
        omega
      · intro x hx
        obtain ⟨i, hi, rfl⟩ := List.mem_map.mp hx
        rw [List.mem_range, hdrops, expectedGap, if_neg hlate, Option.elim_some] at hi
        simp only [entry, hf, hposition, Option.mem_some_iff, forall_eq']
        omega

theorem missing_above {t : Track} {f : Furthest} (hbehind : t.Behind) {pkts : List (Env × Dmrd)}
    (h : Along Track.next Track.InStep t (pkts.map (·.2.seq))) (hf : t.furthest = some f) :
    ∀ a ∈ ledger t pkts, ∀ x ∈ a.missing, f.position < x := by
  induction pkts generalizing t f with
  | nil => simp [ledger]
  | cons p pkts ih =>
    obtain ⟨env, pkt⟩ := p
    obtain ⟨hin, hrest⟩ := h
    obtain ⟨g, hg, -, hge, hmissing⟩ := entry_bounds env ((hbehind.gap_iff pkt.seq).mpr hin)
    intro a ha x hx
    rcases List.mem_cons.mp ha with rfl | ha
    · exact (hmissing x hx).2 f hf
    · exact Int.lt_of_le_of_lt (hge f hf) (ih (hbehind.next pkt.seq) (hrest _ rfl) hg a ha x hx)

theorem ledger_pairwise {t : Track} (hbehind : t.Behind) {pkts : List (Env × Dmrd)}
    (h : Along Track.next Track.InStep t (pkts.map (·.2.seq))) :
    (ledger t pkts).Pairwise fun a b => a.position ∉ b.missing ∧ ∀ x ∈ a.missing, x ∉ b.missing := by
  induction pkts generalizing t with
  | nil => exact .nil
  | cons p pkts ih =>
    obtain ⟨env, pkt⟩ := p
    obtain ⟨hin, hrest⟩ := h
    obtain ⟨g, hg, hposition, -, hmissing⟩ := entry_bounds env ((hbehind.gap_iff pkt.seq).mpr hin)
    have habove := missing_above (hbehind.next pkt.seq) (hrest _ rfl) hg
    refine .cons (fun b hb => ⟨fun hmem => ?_, fun x hx hmem => ?_⟩) (ih (hbehind.next pkt.seq) (hrest _ rfl))
    · exact Int.not_lt.mpr hposition (habove b hb _ hmem)
    · exact Int.lt_asymm (hmissing x hx).1 (habove b hb x hmem)

theorem dropLate_subset (furthest : Option Furthest) (pkts : List (Env × Dmrd)) :
    ∀ p ∈ dropLate furthest pkts, p ∈ pkts := by
  induction pkts generalizing furthest with
  | nil => simp [dropLate]
  | cons q pkts ih =>
    intro p hp
    rw [dropLate] at hp
    split at hp
    · exact List.mem_cons_of_mem q (ih _ p hp)
    · rcases List.mem_cons.mp hp with rfl | hp
      · exact List.mem_cons_self
      · exact List.mem_cons_of_mem q (ih _ p hp)

/-- For all the voice packets of a stream, the first of which may open the call. -/
theorem lossAccounting_iff (P : Params σ φ) (m : Machine σ φ) (streamId : UInt32) (pkts : List (Env × Dmrd))
    (hgw : P.config.gateway ≠ .fmToDmr) (hm : m.state.isTx = false) (hheard : heard m.state streamId = none)
    (hpkts : ∀ p ∈ pkts, IsVoice P.config streamId p.2) :
    LossAccounting P m pkts ↔ Along Track.next Track.InStep ⟨none, none⟩ (pkts.map (·.2.seq)) := by
  have hbehind : Track.Behind ⟨none, none⟩ := .inl ⟨rfl, rfl⟩
  have hall : accounts P none m pkts = ledger ⟨none, none⟩ pkts :=
    accounts_eq_ledger (t := ⟨none, none⟩) hgw hm hheard hpkts
  have hpurged : accounts P none m (dropLate none pkts) = ledger ⟨none, none⟩ (dropLate none pkts) :=
    accounts_eq_ledger (t := ⟨none, none⟩) hgw hm hheard fun p hp => hpkts p (dropLate_subset none pkts p hp)
  have hexpected := ledger_dropLate ⟨none, none⟩ rfl hbehind pkts
  rw [← ledger_iff _ hbehind]
  constructor
  · intro h
    have hremaining := h.remaining
    have hlate := h.late
    rw [hall, hpurged, hexpected] at hremaining
    rw [hall] at hlate
    exact ⟨hremaining, hlate⟩
  · intro h
    have hpairwise := ledger_pairwise hbehind ((ledger_iff _ hbehind pkts).mp h)
    refine ⟨?_, ?_, ?_, ?_⟩
    · rw [hall, hpurged, hexpected]
      exact h.1
    · rw [hall]
      exact h.2
    · rw [hall]
      exact hpairwise.imp fun h => h.1
    · rw [hall]
      exact hpairwise.imp fun h => h.2

/-- In the call of a header, the voice packets with these numbers. -/
def heardHeader : Machine Unit Unit :=
  (onDmrd sampleParams (newMachine () none) (sampleEnv 0 0) (samplePacket .dataSync dataTypeVoiceHeader 7)).1

def voiceSeqs (seqs : List UInt8) : List (Env × Dmrd) :=
  seqs.map fun seq => (sampleEnv 0 0, { samplePacket .voice 1 7 with seq })

/-- A packet is lost, and the one before the loss comes twice. -/
theorem lossAccounting_repeated : LossAccounting sampleParams heardHeader (voiceSeqs [255, 0, 0, 2]) := by
  refine (lossAccounting_iff sampleParams heardHeader 7 _ (by decide) rfl rfl ?_).mpr ?_
  · intro p hp
    obtain ⟨seq, -, rfl⟩ := List.mem_map.mp hp
    exact ⟨rfl, rfl, by simp [samplePacket]⟩
  · simp +decide [voiceSeqs, Along, Track.next, Track.InStep, accept, isLate]

/-- Packets 1 and 2 change places on the way: 2 has been received when it is reported missing. -/
theorem not_lossAccounting_swapped : ¬ LossAccounting sampleParams heardHeader (voiceSeqs [0, 2, 1, 3]) := by
  intro h
  have hreceived := h.received
  revert hreceived
  decide +kernel

end DmrBridge
