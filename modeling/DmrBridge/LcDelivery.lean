import DmrBridge.EmbeddedLcDecode
import DmrBridge.TalkerAlias
import DmrBridge.TxFormat
import Mathlib.Data.List.ModifyLast

/-!
# What a receiver reads in the superframes of a call

Bursts B to E of superframe `k` carry LC number `k` of the rotation: the voice LC, then the bodies
of the talker alias.
-/

open Run

namespace DmrBridge

variable {σ φ : Type}

/-! ## The receiver -/

/-- The LC fragment between the two halves of the EMB codeword. -/
def burstFragment (burst : Bytes 33) : Bytes 4 := .ofFn fun i => (extractSyncSection burst)[i.val + 1]

def concatFragments (fragments : Fragments) : Bits 128 :=
  .ofFn fun i => msbBit (fragments[i.val / 32])[i.val % 32 / 8] (i.val % 8)

def packetFragment (pkt : DmrdPacket) : Option (Bytes 4) := (dmrdOf pkt).map fun d => burstFragment d.dmrData

/-- The fragments of bursts B to E of superframe `k`. -/
def superframeRaw (call : List DmrdPacket) (k : Nat) : Option (Bits 128) := do
  let b ← call[6 * k + 1]?.bind packetFragment
  let c ← call[6 * k + 2]?.bind packetFragment
  let d ← call[6 * k + 3]?.bind packetFragment
  let e ← call[6 * k + 4]?.bind packetFragment
  return concatFragments #v[b, c, d, e]

def addToCalls (calls : List (List DmrdPacket)) : Output → List (List DmrdPacket)
  | .stats (.callStart .fmToDmr ..) => calls ++ [[]]
  | .voice pkt _ => calls.modifyLast (· ++ [pkt])
  | _ => calls

/-- The voice packets of each outgoing call, also those that found the queue full. -/
def voiceCalls (log : List Output) : List (List DmrdPacket) := log.foldl addToCalls []

/-! ## One superframe -/

theorem concatFragments_buildFragments (lcBits : Bits 72) :
    concatFragments (buildFragments lcBits) = encodeRaw lcBits := by
  ext1 i hi
  simp only [concatFragments, buildFragments, Vector.getElem_ofFn]
  rw [msbBit_packMsb _ _ (Nat.mod_lt _ (by decide)), bits_getD _ _ (by omega)]
  exact getElem_congr_idx (by omega)

theorem burstFragment_assembleBurst (ambe : Vector AmbeFrame 3) (colorCode lcss : UInt8) (fragment : Bytes 4) :
    burstFragment (assembleBurst ambe (buildEmbSection colorCode lcss fragment)) = fragment := by
  unfold burstFragment
  rw [extractSyncSection_assembleBurst]
  ext1 i hi
  simp only [Vector.getElem_ofFn]
  rcases (by omega : i = 0 ∨ i = 1 ∨ i = 2 ∨ i = 3) with rfl | rfl | rfl | rfl <;> rfl

/-- Each packet of `call` is the burst of its number. Superframes are counted in 32 bits. -/
def BurstsOf (config : VoiceConfig) (rotation : List Fragments) (streamId : UInt32) (call : List DmrdPacket) : Prop :=
  ∀ n pkt, call[n]? = some pkt →
    ∃ ambe, dmrdOf pkt = some (burstAt config rotation streamId (UInt32.ofNat (n / 6)).toNat n ambe)

theorem packetFragment_of_burst {config : VoiceConfig} {rotation : List Fragments} {streamId : UInt32} {k v : Nat}
    {call : List DmrdPacket} {fragments : Fragments} (h : BurstsOf config rotation streamId call) (hk : k < 2 ^ 32)
    (hv : v < 4) (hlen : 6 * k + (v + 1) < call.length)
    (hrot : rotation[k % rotation.length]? = some fragments) :
    call[6 * k + (v + 1)]?.bind packetFragment = some fragments[v] := by
  have hdiv : (6 * k + (v + 1)) / 6 = k := by omega
  have hmod : (6 * k + (v + 1)) % 6 = v + 1 := by omega
  have hwrap : (UInt32.ofNat k).toNat = k := by
    rw [UInt32.toNat_ofNat']
    omega
  obtain ⟨ambe, hpkt⟩ := h _ _ (List.getElem?_eq_getElem hlen)
  rw [hdiv, hwrap] at hpkt
  have hcentre : centre config rotation k (6 * k + (v + 1)) =
      buildEmbSection config.colorCode.value (burstLcss (v + 1)) fragments[v] := by
    simp only [centre, hmod, List.getD_eq_getElem?_getD, hrot, Option.getD_some]
    rcases (by omega : v = 0 ∨ v = 1 ∨ v = 2 ∨ v = 3) with rfl | rfl | rfl | rfl <;> simp [Vector.getD]
  rw [List.getElem?_eq_getElem hlen, Option.bind_some, packetFragment, hpkt, Option.map_some, burstAt, buildDmrd,
    hcentre, burstFragment_assembleBurst]

theorem superframeRaw_eq {config : VoiceConfig} {rotation : List Fragments} {streamId : UInt32} {k : Nat}
    {call : List DmrdPacket} {lcBits : Bits 72} (h : BurstsOf config rotation streamId call) (hk : k < 2 ^ 32)
    (hlen : 6 * k + 6 ≤ call.length) (hrot : rotation[k % rotation.length]? = some (buildFragments lcBits)) :
    superframeRaw call k = some (encodeRaw lcBits) := by
  have hfragment (v : Nat) (hv : v < 4) := packetFragment_of_burst h hk hv (by omega) hrot
  have hfragments : #v[(buildFragments lcBits)[0], (buildFragments lcBits)[1], (buildFragments lcBits)[2],
      (buildFragments lcBits)[3]] = buildFragments lcBits := by
    ext1 i hi
    rcases (by omega : i = 0 ∨ i = 1 ∨ i = 2 ∨ i = 3) with rfl | rfl | rfl | rfl <;> rfl
  rw [superframeRaw, hfragment 0 (by decide), hfragment 1 (by decide), hfragment 2 (by decide), hfragment 3 (by decide)]
  simp [hfragments, concatFragments_buildFragments]

/-! ## Runs -/

/-- All calls so far, and the counters of the open one. -/
structure CallsInv (config : VoiceConfig) (rotation : List Fragments) (s : PttState) (calls : List (List DmrdPacket)) :
    Prop where
  bursts : ∀ call ∈ calls, ∃ streamId, BurstsOf config rotation streamId call
  tx : ∀ tx, s = .tx tx → ∃ prior call, calls = prior ++ [call] ∧
    BurstsOf config rotation tx.streamId call ∧ CountersAt rotation tx.streamId call.length tx

section
variable {P : Params σ φ} {rotation : List Fragments}

theorem addToCalls_quiet (calls : List (List DmrdPacket)) (outs : List Output)
    (h : ∀ o ∈ outs, ∀ calls, addToCalls calls o = calls) : outs.foldl addToCalls calls = calls := by
  induction outs with
  | nil => rfl
  | cons o outs ih =>
    rw [List.foldl_cons, h o List.mem_cons_self]
    exact ih fun o' ho' => h o' (List.mem_cons_of_mem o ho')

theorem addToCalls_receive {o : Output} (h : o.dir = .dmrToFm) (calls : List (List DmrdPacket)) :
    addToCalls calls o = calls := by
  match o with
  | .audio _ | .metadata _ | .control _ | .panicked => rfl
  | .stats (.voiceFrame ..) | .stats (.drop _) | .stats (.callEnd ..) => rfl
  | .stats (.callStart .dmrToFm ..) => rfl
  | .stats (.callStart .fmToDmr ..) => cases h
  | .voice _ _ => cases h

theorem addToCalls_dropBurst (calls : List (List DmrdPacket)) (dir : CallDirection) :
    (dropBurst dir).foldl addToCalls calls = calls := by
  refine addToCalls_quiet calls _ fun o ho calls => ?_
  rw [List.eq_of_mem_replicate ho]
  rfl

theorem addToCalls_trySend (calls : List (List DmrdPacket)) (env : Env) (pkt : DmrdPacket) :
    (trySendVoiceDmrd env pkt).foldl addToCalls calls = calls.modifyLast (· ++ [pkt]) := by
  unfold trySendVoiceDmrd
  split
  · rw [List.foldl_cons, addToCalls_dropBurst]
    rfl
  · rw [List.foldl_cons]
    refine addToCalls_quiet _ _ fun o ho calls => ?_
    obtain ⟨i, -, rfl⟩ := List.mem_map.mp ho
    rfl

theorem BurstsOf.snoc {config : VoiceConfig} {streamId : UInt32} {call : List DmrdPacket} {pkt : DmrdPacket}
    {ambe : Vector AmbeFrame 3} (h : BurstsOf config rotation streamId call)
    (hpkt : dmrdOf pkt =
      some (burstAt config rotation streamId (UInt32.ofNat (call.length / 6)).toNat call.length ambe)) :
    BurstsOf config rotation streamId (call ++ [pkt]) := by
  intro n p hp
  rcases Nat.lt_trichotomy n call.length with hlt | rfl | hgt
  · rw [List.getElem?_append_left hlt] at hp
    exact h n p hp
  · rw [List.getElem?_concat_length] at hp
    cases hp
    exact ⟨ambe, hpkt⟩
  · rw [List.getElem?_eq_none (by simp; omega)] at hp
    cases hp

/-- The open call `call` has become `call'`; the log got `outs`. -/
theorem callsInv_burst {env : Env} {c : Codec σ φ} {tx tx' : TxCall} {outs : List Output}
    {prior : List (List DmrdPacket)} {call : List DmrdPacket} (h : BurstMove P env c tx tx' outs)
    (hbursts : BurstsOf P.config rotation tx.streamId call)
    (hcount : CountersAt rotation tx.streamId call.length tx) :
    ∃ call', outs.foldl addToCalls (prior ++ [call]) = prior ++ [call'] ∧
      BurstsOf P.config rotation tx'.streamId call' ∧ CountersAt rotation tx'.streamId call'.length tx' := by
  cases h with
  | failed henc => exact ⟨call, addToCalls_dropBurst _ _, hbursts, hcount.withBuf []⟩
  | sent ambe pkt henc hpkt =>
    rw [burstDmrd_eq hcount] at hpkt
    refine ⟨call ++ [pkt], ?_, hbursts.snoc hpkt, ?_⟩
    · rw [addToCalls_trySend, List.modifyLast_concat]
    · rw [List.length_append]
      exact hcount.advance []

theorem callsInv_step (hrot : buildLcRotation P.config = some rotation) {env : Env} {c : Codec σ φ} {ev : PttEvent}
    {s s' : PttState} {outs : List Output} {calls : List (List DmrdPacket)}
    (h : CallsInv P.config rotation s calls) (hmove : TxMove P env c ev s s' outs) :
    CallsInv P.config rotation s' (outs.foldl addToCalls calls) := by
  have hopen {prior : List (List DmrdPacket)} {call' : List DmrdPacket} {tx' : TxCall}
      (hprior : ∀ call ∈ prior, call ∈ calls) (hbursts : BurstsOf P.config rotation tx'.streamId call')
      (hcount : CountersAt rotation tx'.streamId call'.length tx') :
      CallsInv P.config rotation (.tx tx') (prior ++ [call']) := by
    refine ⟨fun call hcall => ?_, fun tx htx => ?_⟩
    · rcases List.mem_append.mp hcall with hcall | hcall
      · exact h.bursts call (hprior call hcall)
      · rw [List.mem_singleton.mp hcall]
        exact ⟨_, hbursts⟩
    · cases htx
      exact ⟨prior, call', rfl, hbursts, hcount⟩
  cases hmove with
  | receive hs hs' houts =>
    rw [addToCalls_quiet calls outs fun o ho => addToCalls_receive (houts o ho)]
    refine ⟨h.bursts, ?_⟩
    rintro tx rfl
    cases hs'
  | @start frame audio rotation' hdr d _ _ _ hrot' hpos hhdr hd =>
    obtain rfl : rotation = rotation' := Option.some.inj (hrot.symm.trans hrot')
    refine hopen (fun call hcall => hcall) (fun n pkt hpkt => by simp at hpkt) ?_
    exact ⟨rfl, rfl, rfl, by simp [newTxCall], rfl⟩
  | keep => exact h
  | buffer =>
    obtain ⟨prior, call, rfl, hbursts, hcount⟩ := h.tx _ rfl
    exact hopen (fun c hc => List.mem_append_left _ hc) hbursts (hcount.withBuf _)
  | @burst frame audio tx tx' _ hgw hkey hframe hlen hburst =>
    obtain ⟨prior, call, rfl, hbursts, hcount⟩ := h.tx _ rfl
    obtain ⟨call', hcalls, hbursts', hcount'⟩ := callsInv_burst hburst hbursts (hcount.withBuf _)
    rw [hcalls]
    exact hopen (fun c hc => List.mem_append_left _ hc) hbursts' hcount'
  | finish hreason hflush =>
    obtain ⟨prior, call, rfl, hbursts, hcount⟩ := h.tx _ rfl
    rw [List.foldl_append]
    cases hflush with
    | empty => exact ⟨h.bursts, fun tx htx => by cases htx⟩
    | burst hbuf hburst =>
      obtain ⟨call', hcalls, hbursts', hcount'⟩ := callsInv_burst hburst hbursts hcount
      rw [hcalls]
      exact ⟨(hopen (fun c hc => List.mem_append_left _ hc) hbursts' hcount').bursts, fun tx htx => by cases htx⟩
  | reset => exact ⟨h.bursts, fun tx htx => by cases htx⟩

theorem callsInv_run (hrot : buildLcRotation P.config = some rotation) (vocoder : σ) (filter : Option φ)
    (evs : List (Env × PttEvent)) :
    CallsInv P.config rotation (exec (turn P) (newMachine vocoder filter) evs).1.state
      (voiceCalls (exec (turn P) (newMachine vocoder filter) evs).2) := by
  have hstart : CallsInv P.config rotation (newMachine vocoder filter).state (voiceCalls []) := by
    refine ⟨fun call hcall => ?_, fun tx htx => ?_⟩
    · cases hcall
    · cases htx
  refine exec_invariant (fun (m : Machine σ φ) log => CallsInv P.config rotation m.state (voiceCalls log)) ?_ hstart evs
  intro m log e h
  rw [voiceCalls, List.foldl_append]
  exact callsInv_step hrot h (handle_move P m e.1 e.2)

end

/-- Any events in any order, from `Idle` on. -/
theorem lc_delivered (P : Params σ φ) (vocoder : σ) (filter : Option φ) (evs : List (Env × PttEvent)) :
    ∃ voiceLc aliasBodies,
      lcBodyBytes (isGroupCall P.config) P.config.talkgroup.asU32 P.config.srcId.asU32 = some voiceLc ∧
      (∀ call ∈ voiceCalls (exec (turn P) (newMachine vocoder filter) evs).2, ∀ k < 2 ^ 32, 6 * k + 6 ≤ call.length →
        ∃ raw, superframeRaw call k = some raw ∧
          decodeRaw raw = .ok ((voiceLc :: aliasBodies).get
            ⟨k % (aliasBodies.length + 1), Nat.mod_lt _ (Nat.succ_pos _)⟩)) ∧
      aliasBodies.map flco = [0x04, 0x05, 0x06, 0x07].take aliasBodies.length ∧
      if IsAlias P.config.callsign then aliasBodies ≠ [] ∧ readTalkerAlias aliasBodies = P.config.callsign
      else aliasBodies = [] := by
  obtain ⟨voiceLc, hvoiceLc⟩ := Option.isSome_iff_exists.mp
    (lcBodyBytes_isSome (isGroupCall P.config) _ _ P.config.talkgroup.range P.config.srcId.range)
  have hrot : buildLcRotation P.config =
      some ((voiceLc :: talkerAliasBodies P.config.callsign).map fun body => buildFragments (bytesToBits body)) := by
    simp [buildLcRotation, buildVoiceLcBody, hvoiceLc, encodeTalkerAliasLcs_eq]
  have hinv := callsInv_run hrot vocoder filter evs
  refine ⟨voiceLc, talkerAliasBodies P.config.callsign, hvoiceLc, ?_, talkerAliasBodies_flco _, ?_⟩
  · intro call hcall k hk hlen
    obtain ⟨streamId, hbursts⟩ := hinv.bursts call hcall
    have hlt : k % (voiceLc :: talkerAliasBodies P.config.callsign).length <
        (voiceLc :: talkerAliasBodies P.config.callsign).length := Nat.mod_lt _ (Nat.succ_pos _)
    have hraw : superframeRaw call k =
        some (encodeRaw (bytesToBits ((voiceLc :: talkerAliasBodies P.config.callsign).get ⟨_, hlt⟩))) := by
      apply superframeRaw_eq hbursts hk hlen
      rw [List.length_map, List.getElem?_map, List.getElem?_eq_getElem hlt]
      rfl
    refine ⟨_, hraw, ?_⟩
    rw [decodeRaw_encodeRaw, packBytes_bytesToBits]
    rfl
  · split
    · rename_i halias
      refine ⟨?_, readTalkerAlias_talkerAliasBodies halias⟩
      rw [talkerAliasBodies, if_pos halias]
      simp
    · rename_i halias
      rw [talkerAliasBodies, if_neg halias]

/-- With the callsign N0CALL. -/
def namedParams : Params Unit Unit :=
  { sampleParams with config := { sampleConfig with callsign := [78, 48, 67, 65, 76, 76] } }

/-- A call of twelve bursts. -/
def twoSuperframes : List (Env × PttEvent) := List.replicate 36 (sampleEnv 0 3, .audio ⟨true, some silence, none⟩)

/-- The first superframe carries the voice LC, the second the header of the talker alias. -/
theorem lc_delivered_twoSuperframes :
    ∃ call voiceLc header blocks, voiceCalls (exec (turn namedParams) (newMachine () none) twoSuperframes).2 = [call] ∧
      call.length = 12 ∧ lcBodyBytes true 91 3151238 = some voiceLc ∧
      (superframeRaw call 0).map decodeRaw = some (.ok voiceLc) ∧
      (superframeRaw call 1).map decodeRaw = some (.ok header) ∧ flco header = 0x04 ∧
      readTalkerAlias (header :: blocks) = [78, 48, 67, 65, 76, 76] := by
  have hlengths :
      (voiceCalls (exec (turn namedParams) (newMachine () none) twoSuperframes).2).map List.length = [12] := by
    decide +kernel
  obtain ⟨call, hcalls, hlength⟩ := List.map_eq_singleton_iff.mp hlengths
  have hcallsign : IsAlias namedParams.config.callsign := by decide +kernel
  have hdelivered := lc_delivered namedParams () none twoSuperframes
  simp only [if_pos hcallsign] at hdelivered
  obtain ⟨voiceLc, aliasBodies, hvoiceLc, hread, hflco, hsome, hname⟩ := hdelivered
  obtain ⟨header, blocks, rfl⟩ := List.exists_cons_of_ne_nil hsome
  obtain ⟨hheader, -⟩ := List.cons.inj hflco
  have hmem : call ∈ voiceCalls (exec (turn namedParams) (newMachine () none) twoSuperframes).2 := by simp [hcalls]
  obtain ⟨first, hfirst, hvoice⟩ := hread call hmem 0 (by decide) (by omega)
  obtain ⟨second, hsecond, hbody⟩ := hread call hmem 1 (by decide) (by omega)
  refine ⟨call, voiceLc, header, blocks, hcalls, hlength, hvoiceLc, ?_, ?_, hheader, hname⟩
  · rw [hfirst]
    exact congrArg some hvoice
  · rw [hsecond]
    refine congrArg some (hbody.trans ?_)
    simp

end DmrBridge
