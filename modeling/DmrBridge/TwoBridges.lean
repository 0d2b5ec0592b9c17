import DmrBridge.EncoderLog
import DmrBridge.Playback

/-!
# Two bridges on a talkgroup

What one bridge sends of its FM side, over a network that loses packets, and what the other one gives to its own FM
side.
-/

open Run

namespace DmrBridge

variable {σ φ τ ψ : Type}

/-! ## Calls in turn -/

/-- One call at a receiver whose decoder is in state `v`. -/
def Vocoder.hear (V : Vocoder σ) (v : σ) (h : Delivery × TxLog) : σ × List AudioFrame :=
  ((exec V.play v (h.1.playback h.2)).1, h.1.audio V v h.2)

theorem hears_calls {Q : Params τ ψ} {sender : VoiceConfig} {rotation : List Fragments} {superframe : Nat → Nat}
    (hlisten : Listens Q.config sender) {m : Machine τ ψ} (hm : Listening m.state) (hc : m.codec.Clean)
    (heard : List (Delivery × TxLog)) (hformat : ∀ h ∈ heard, Format sender rotation superframe h.2)
    (hdelivered : ∀ h ∈ heard, h.1.Of h.2) (hended : ∀ h ∈ heard.dropLast, h.2.ended = true)
    (arrivals : List (Env × Dmrd)) (hcalm : ∀ a ∈ arrivals, a.1.Calm)
    (hpkts : arrivals.map (·.2) = (heard.flatMap fun h => h.1.packets h.2).filterMap dmrdOf) :
    (exec (receive Q) m arrivals).1.codec.vocoder = (exec Q.vocoder.hear m.codec.vocoder heard).1 ∧
      (exec (receive Q) m arrivals).2.filterMap audioOf = (exec Q.vocoder.hear m.codec.vocoder heard).2 := by
  induction heard generalizing m arrivals with
  | nil =>
    obtain rfl : arrivals = [] := by simpa using hpkts
    exact ⟨rfl, rfl⟩
  | cons h heard ih =>
    rw [List.flatMap_cons, List.filterMap_append] at hpkts
    obtain ⟨first, rest, rfl, hfirst, hrest⟩ := List.map_eq_append_iff.mp hpkts
    obtain ⟨hlistening, hcodec, haudio⟩ := hears_call hlisten hm hc (hformat h List.mem_cons_self)
      (hdelivered h List.mem_cons_self) first (fun a ha => hcalm a (List.mem_append_left _ ha)) hfirst
    rw [exec_append, List.filterMap_append, haudio]
    cases heard with
    | nil =>
      obtain rfl : rest = [] := by simpa using hrest
      refine ⟨?_, rfl⟩
      rw [exec_nil, hcodec]
      rfl
    | cons next heard =>
      have hclean : (exec (receive Q) m first).1.codec.Clean := by
        rw [hcodec]
        exact hc.vocoder _
      have hdone := hlistening (hended h (by simp))
      obtain ⟨hstate, hothers⟩ := ih hdone hclean (fun g hg => hformat g (List.mem_cons_of_mem h hg))
        (fun g hg => hdelivered g (List.mem_cons_of_mem h hg)) (fun g hg => hended g (by simpa using .inr hg)) rest
        (fun a ha => hcalm a (List.mem_append_right _ ha)) hrest
      rw [hcodec] at hstate hothers
      exact ⟨hstate, congrArg (_ ++ ·) hothers⟩

/-! ## From one FM side to the other -/

/-- The packets that arrive at the receiver, each parsed, when these deliveries come of these calls. -/
def Arrive (ds : List Delivery) (calls : List TxLog) (arrivals : List (Env × Dmrd)) : Prop :=
  arrivals.map (·.2) = ((ds.zip calls).flatMap fun h => h.1.packets h.2).filterMap dmrdOf

/-- The calls of a sender. All but the last are over. -/
structure SentCalls (P : Params σ φ) (vocoder : σ) (filter : Option φ) (evs : List (Env × PttEvent))
    (calls : List TxLog) :
    Prop where
  built : (exec (turn P) (newMachine vocoder filter) evs).2.filterMap builtOf = calls.flatMap TxLog.packets
  encoded : (exec (encoding P) (newMachine vocoder filter) evs).2 = calls.flatMap TxLog.bursts
  ended : ∀ call ∈ calls.dropLast, call.ended = true

theorem sentCalls_run (P : Params σ φ) (vocoder : σ) (filter : Option φ) (evs : List (Env × PttEvent))
    (hevs : ∀ e ∈ evs, ∀ x, e.2 ≠ .control x) :
    ∃ rotation superframe calls, SentCalls P vocoder filter evs calls ∧
      ∀ call ∈ calls, Format P.config rotation superframe call := by
  obtain ⟨rotation, hrot, -⟩ := buildLcRotation_spec P.config
  obtain ⟨calls, last, hinv⟩ := txInv_run hrot vocoder filter evs hevs
  have hlast : last.elim [] TxLog.packets = last.toList.flatMap TxLog.packets ∧
      last.elim [] TxLog.bursts = last.toList.flatMap TxLog.bursts := by
    cases last <;> simp
  refine ⟨rotation, fun k => (UInt32.ofNat (k / 6)).toNat, calls ++ last.toList, ⟨?_, ?_, ?_⟩, ?_⟩
  · rw [hinv.built, hlast.1, List.flatMap_append]
  · rw [hinv.encoded, hlast.2, List.flatMap_append]
  · intro call hcall
    cases last with
    | none => exact hinv.ended call (List.dropLast_subset _ (by simpa using hcall))
    | some open_ => exact hinv.ended call (by simpa using hcall)
  · intro call hcall
    rcases List.mem_append.mp hcall with hc | hc
    · exact hinv.format call hc
    · cases hs : (exec (turn P) (newMachine vocoder filter) evs).1.state with
      | tx tx =>
        obtain ⟨c, rfl, -, hformat, -⟩ := hinv.tx tx hs
        rw [List.mem_singleton.mp hc]
        exact hformat
      | _ =>
        obtain rfl := hinv.idle (by rw [hs]; rfl)
        cases hc

theorem delivered_of_forall₂ {ds : List Delivery} {calls : List TxLog} (h : List.Forall₂ Delivery.Of ds calls)
    (hended : ∀ call ∈ calls.dropLast, call.ended = true) :
    (∀ x ∈ ds.zip calls, x.1.Of x.2 ∧ x.2 ∈ calls) ∧ ∀ x ∈ (ds.zip calls).dropLast, x.2.ended = true := by
  obtain ⟨hlength, hof⟩ := List.forall₂_iff_zip.mp h
  constructor
  · rintro ⟨d, call⟩ hx
    exact ⟨hof hx, List.of_mem_zip hx |>.2⟩
  · intro x hx
    apply hended
    have hsecond : (ds.zip calls).map Prod.snd = calls := List.map_snd_zip hlength.ge
    rw [← hsecond, ← List.map_dropLast]
    exact List.mem_map_of_mem hx

theorem clean_newMachine (vocoder : σ) (filter : Option φ) : (newMachine vocoder filter).codec.Clean := ⟨rfl, rfl⟩

/-- A fresh receiver that listens to the sender and handles what arrives of its packets and nothing else, not even a
timeout, with room in the FM queue and no cancel or panic in its vocoder (`Env.Calm`): its FM side hears the calls in
turn, each played by `Delivery.playback` from what has arrived of it, with an unkey after a call that is over if more
than its terminator has arrived. The sender handles no control event. -/
theorem end_to_end (P : Params σ φ) (Q : Params τ ψ) (hlisten : Listens Q.config P.config) (vocoder : σ)
    (filter : Option φ) (vocoder' : τ) (filter' : Option ψ) (evs : List (Env × PttEvent))
    (hevs : ∀ e ∈ evs, ∀ x, e.2 ≠ .control x) :
    ∃ calls, SentCalls P vocoder filter evs calls ∧
      ∀ ds, List.Forall₂ Delivery.Of ds calls → ∀ arrivals, (∀ a ∈ arrivals, a.1.Calm) → Arrive ds calls arrivals →
        (exec (receive Q) (newMachine vocoder' filter') arrivals).2.filterMap audioOf =
          (exec Q.vocoder.hear vocoder' (ds.zip calls)).2 := by
  obtain ⟨rotation, superframe, calls, hsent, hformat⟩ := sentCalls_run P vocoder filter evs hevs
  refine ⟨calls, hsent, fun ds hds arrivals hcalm harrive => ?_⟩
  obtain ⟨hall, hended⟩ := delivered_of_forall₂ hds hsent.ended
  exact (hears_calls hlisten ⟨rfl, rfl⟩ (clean_newMachine vocoder' filter') (ds.zip calls)
    (fun h hh => hformat h.2 (hall h hh).2) (fun h hh => (hall h hh).1) hended arrivals hcalm harrive).2

/-- Key-up, two more frames and unkey: a call of one burst. -/
def keying : List (Env × PttEvent) :=
  List.replicate 3 (sampleEnv 0 3, .audio (makeVoiceFrame silence 3)) ++ [(sampleEnv 0 0, .audio (makeUnkeyFrame none))]

theorem keying_audio : ∀ e ∈ keying, ∀ x, e.2 ≠ .control x := by simp [keying]

theorem listens_sample : Listens sampleParams.config sampleParams.config := ⟨by decide, rfl, rfl, rfl⟩

theorem end_to_end_sample :
    ∃ calls, SentCalls sampleParams () none keying calls ∧
      ∀ ds, List.Forall₂ Delivery.Of ds calls → ∀ arrivals, (∀ a ∈ arrivals, a.1.Calm) → Arrive ds calls arrivals →
        (exec (receive sampleParams) (newMachine () none) arrivals).2.filterMap audioOf =
          (exec sampleParams.vocoder.hear () (ds.zip calls)).2 :=
  end_to_end sampleParams sampleParams listens_sample () none () none keying keying_audio

/-! ## Every burst in its place -/

namespace Delivery

/-- The three frames of burst `k`, or three lost ones. -/
def slot (d : Delivery) (call : TxLog) (k : Nat) : List (Option AmbeFrame) :=
  if k ∈ d.bursts then call.bursts[k]?.elim [] fun ambe => ambe.toList.map some else .replicate 3 none

/-- All bursts from the first that is heard to the last. -/
def timeline (d : Delivery) (call : TxLog) : List (Option AmbeFrame) :=
  match d.bursts with
  | [] => []
  | first :: rest => (List.range' first (rest.getLastD first + 1 - first)).flatMap (d.slot call)

/-- No gap is a boundary. -/
def Close (d : Delivery) : Prop := d.bursts.IsChain fun j k => k - (j + 1) ≤ 3

theorem ambe_burst {gap : Nat} (hgap : gap ≤ 3) (ambe : Vector AmbeFrame 3) :
    (burstPlayback gap ambe).filterMap Playback.ambe = .replicate (3 * gap) none ++ ambe.toList.map some := by
  have hlost : (List.replicate (3 * gap) (Playback.frame none)).filterMap Playback.ambe =
    .replicate (3 * gap) none := by
    simp [List.filterMap_replicate, Playback.ambe]
  have hframes : (ambe.toList.map (Playback.frame ∘ some)).filterMap Playback.ambe = ambe.toList.map some := by
    rw [List.filterMap_map, ← List.filterMap_eq_map]
    rfl
  rw [burstPlayback, concealment, if_neg (Nat.not_lt.mpr hgap), List.filterMap_append, hlost, hframes]

theorem slots_lost {d : Delivery} {call : TxLog} {start count : Nat}
    (h : ∀ i, start ≤ i → i < start + count → i ∉ d.bursts) :
    (List.range' start count).flatMap (d.slot call) = .replicate (3 * count) none := by
  induction count generalizing start with
  | zero => rfl
  | succ count ih =>
    have hfirst := h start (Nat.le_refl _) (by omega)
    rw [List.range'_succ, List.flatMap_cons, ih fun i hi hlt => h i (by omega) (by omega), slot, if_neg hfirst,
      List.replicate_append_replicate]
    congr 1
    omega

theorem range'_split {j k last : Nat} (hlt : j < k) (hle : k ≤ last) :
    List.range' (j + 1) (last - j) = List.range' (j + 1) (k - (j + 1)) ++ k :: List.range' (k + 1) (last - k) := by
  obtain ⟨gap, rfl⟩ := Nat.exists_eq_add_of_le hlt
  obtain ⟨rest, rfl⟩ := Nat.exists_eq_add_of_le hle
  have hgap : j.succ + gap - (j + 1) = gap := by omega
  have hrest : j.succ + gap + rest - (j.succ + gap) = rest := by omega
  have hall : j.succ + gap + rest - j = gap + (rest + 1) := by omega
  rw [hgap, hrest, hall, ← List.range'_succ, List.range'_append_1]

/-- The bursts after `j`. -/
theorem ambe_bursts {d : Delivery} {call : TxLog} (j : Nat) (ks : List Nat) (horder : (j :: ks).IsChain (· < ·))
    (hclose : (j :: ks).IsChain fun j k => k - (j + 1) ≤ 3) (hsent : ∀ k ∈ ks, k < call.bursts.length)
    (hafter : ∀ i, j < i → (i ∈ d.bursts ↔ i ∈ ks)) :
    (burstsPlayback call (some j) ks).filterMap Playback.ambe =
      (List.range' (j + 1) (ks.getLastD j - j)).flatMap (d.slot call) := by
  induction ks generalizing j with
  | nil => simp [burstsPlayback]
  | cons k ks ih =>
    obtain ⟨hlt, horder⟩ := List.isChain_cons_cons.mp horder
    obtain ⟨hgap, hclose⟩ := List.isChain_cons_cons.mp hclose
    have habove : ∀ i ∈ ks, k < i := (List.pairwise_cons.mp (List.isChain_iff_pairwise.mp horder)).1
    have hlast : k ≤ ks.getLastD k := by
      rcases List.eq_nil_or_concat ks with rfl | ⟨init, last, rfl⟩
      · exact Nat.le_refl _
      · simp only [List.concat_eq_append, List.getLastD_concat]
        exact Nat.le_of_lt (habove last (by simp))
    have hrest := ih k horder hclose (fun i hi => hsent i (List.mem_cons_of_mem k hi)) fun i hi => by
      rw [hafter i (Nat.lt_trans hlt hi), List.mem_cons]
      exact ⟨fun h => h.resolve_left (Nat.ne_of_gt hi), .inr⟩
    have hlost : (List.range' (j + 1) (k - (j + 1))).flatMap (d.slot call) = .replicate (3 * (k - (j + 1))) none := by
      apply slots_lost
      intro i hi hlt' hmem
      rcases List.mem_cons.mp ((hafter i (by omega)).mp hmem) with rfl | hi'
      · omega
      · have := habove i hi'
        omega
    have hk : k ∈ d.bursts := (hafter k hlt).mpr List.mem_cons_self
    rw [burstsPlayback, List.filterMap_append, hrest, List.getLastD_cons, range'_split hlt hlast, List.flatMap_append,
      List.flatMap_cons, hlost, slot, if_pos hk, ← List.append_assoc]
    have hlen := hsent k List.mem_cons_self
    have hburst : call.bursts[k]? = some call.bursts[k] := List.getElem?_eq_getElem hlen
    rw [hburst]
    exact congrArg (· ++ _) (ambe_burst hgap call.bursts[k])

theorem ambe_playback {d : Delivery} {call : TxLog} (hd : d.Of call) (hclose : d.Close) :
    (d.playback call).filterMap Playback.ambe = d.timeline call := by
  have horder : d.bursts.IsChain (· < ·) := hd.inOrder.imp fun _ _ h => h.1
  have hsent := hd.sent
  unfold Close at hclose
  unfold playback timeline
  cases hbursts : d.bursts with
  | nil => cases hs : d.silent <;> simp [burstsPlayback, Playback.ambe]
  | cons first rest =>
    rw [hbursts] at horder hclose hsent
    have habove : ∀ i ∈ rest, first < i := (List.pairwise_cons.mp (List.isChain_iff_pairwise.mp horder)).1
    have hrest := ambe_bursts (d := d) first rest horder hclose (fun k hk => hsent k (List.mem_cons_of_mem first hk))
      fun i hi => by simp [hbursts, Nat.ne_of_gt hi]
    have hlen := hsent first List.mem_cons_self
    have hburst : call.bursts[first]? = some call.bursts[first] := List.getElem?_eq_getElem hlen
    have hlast : first ≤ rest.getLastD first := by
      rcases List.eq_nil_or_concat rest with rfl | ⟨init, last, rfl⟩
      · exact Nat.le_refl _
      · simp only [List.concat_eq_append, List.getLastD_concat]
        exact Nat.le_of_lt (habove last (by simp))
    have hcount : rest.getLastD first + 1 - first = (rest.getLastD first - first) + 1 := by omega
    have hmem : first ∈ d.bursts := by simp [hbursts]
    simp only [hcount]
    rw [if_neg (by simp [silent, hbursts]), List.range'_succ, List.flatMap_cons, ← hrest, slot, if_pos hmem,
      List.filterMap_cons_none rfl, burstsPlayback, List.filterMap_append, hburst]
    exact congrArg (· ++ _) (ambe_burst (Nat.zero_le 3) call.bursts[first])

/-- Nothing is lost. -/
def whole (call : TxLog) : Delivery := ⟨true, List.range call.bursts.length⟩

theorem range_isChain {R : Nat → Nat → Prop} (n : Nat) (h : ∀ k, R k (k + 1)) : (List.range n).IsChain R := by
  rw [List.isChain_iff_getElem]
  intro i hi
  simpa using h i

theorem whole_of (call : TxLog) : (whole call).Of call where
  inOrder := range_isChain _ fun k => by omega
  sent k hk := List.mem_range.mp hk

theorem whole_close (call : TxLog) : (whole call).Close := range_isChain _ fun k => by omega

theorem flatMap_range {α β : Type} (l : List α) (f : α → List β) :
    ((List.range l.length).flatMap fun k => l[k]?.elim [] f) = l.flatMap f := by
  induction l with
  | nil => rfl
  | cons a l ih =>
    rw [List.length_cons, List.range_succ_eq_map, List.flatMap_cons, List.flatMap_map, List.flatMap_cons]
    exact congrArg (f a ++ ·) ih

theorem filterMap_range {α : Type} (l : List α) : (List.range l.length).filterMap (l[·]?) = l := by
  have hself := flatMap_range l fun a => [a]
  rw [List.flatMap_singleton'] at hself
  rw [List.filterMap_eq_flatMap_toList]
  refine Eq.trans (List.flatMap_congr fun k _ => ?_) hself
  cases l[k]? <;> rfl

theorem packets_whole {sender : VoiceConfig} {rotation : List Fragments} {superframe : Nat → Nat} {call : TxLog}
    (h : Format sender rotation superframe call) : (whole call).packets call = call.packets := by
  obtain ⟨hdr, mid, term, hpackets, -, hmid, -⟩ := h.packets
  have hlength : mid.length = call.bursts.length := by
    have hmapped := congrArg List.length hmid
    simpa using hmapped
  have hbursts : ((List.range mid.length).filterMap fun k => call.packets[k + 1]?) = mid := by
    refine Eq.trans (List.filterMap_congr fun k hk => ?_) (filterMap_range mid)
    rw [hpackets, List.cons_append, List.getElem?_cons_succ, List.getElem?_append_left (List.mem_range.mp hk)]
  simp only [packets, whole, if_true, ← hlength, hbursts]
  rw [hpackets, List.cons_append, List.take_succ_cons, List.take_zero, List.drop_succ_cons, List.drop_left]
  rfl

theorem timeline_whole (call : TxLog) : (whole call).timeline call = (call.bursts.flatMap Vector.toList).map some := by
  have hslots : (List.range call.bursts.length).flatMap ((whole call).slot call) =
      (call.bursts.flatMap Vector.toList).map some := by
    rw [List.map_flatMap, ← flatMap_range call.bursts]
    apply List.flatMap_congr
    intro k hk
    rw [slot, if_pos (show k ∈ (whole call).bursts from hk)]
  rw [← hslots, timeline, whole]
  cases call.bursts.length with
  | zero => rfl
  | succ n =>
    have hrange : List.range (n + 1) = 0 :: List.range' 1 n := by rw [List.range_eq_range', List.range'_succ]
    have hlast : (List.range' 1 n).getLastD 0 = n := by
      cases n with
      | zero => rfl
      | succ n => simp [List.range'_concat, Nat.add_comm]
    simp only [hrange, hlast, Nat.sub_zero]
    rw [← hrange, List.range_eq_range']

end Delivery

/-! ## What reaches the decoder -/

theorem exec_play_logged (V : Vocoder σ) (v : σ) (log : List VocoderCall) (items : List Playback) :
    (exec V.logged.play (v, log) items).1 =
      ((exec V.play v items).1, log ++ (items.filterMap Playback.ambe).map .decode) := by
  induction items generalizing v log with
  | nil => simp
  | cons item items ih =>
    cases item with
    | begin | restart => exact ih _ _
    | frame ambe =>
      refine (ih _ _).trans ?_
      simp [Playback.ambe, exec, Vocoder.play]

theorem exec_hear_logged (V : Vocoder σ) (v : σ) (log : List VocoderCall) (heard : List (Delivery × TxLog)) :
    (exec V.logged.hear (v, log) heard).1 =
      ((exec V.hear v heard).1,
        log ++ (heard.flatMap fun h => (h.1.playback h.2).filterMap Playback.ambe).map .decode) := by
  induction heard generalizing v log with
  | nil => simp
  | cons h heard ih =>
    have hfirst := exec_play_logged V v log (h.1.playback h.2)
    simp only [exec, Vocoder.hear, hfirst, ih]
    simp

theorem decodes_calls {P : Params σ φ} {Q : Params τ ψ} (hlisten : Listens Q.config P.config)
    {rotation : List Fragments} {superframe : Nat → Nat} (vocoder' : τ) (filter' : Option ψ) {calls : List TxLog}
    (hended : ∀ call ∈ calls.dropLast, call.ended = true)
    (hformat : ∀ call ∈ calls, Format P.config rotation superframe call)
    {ds : List Delivery} (hds : List.Forall₂ Delivery.Of ds calls) (hclose : ∀ d ∈ ds, d.Close)
    {arrivals : List (Env × Dmrd)} (hcalm : ∀ a ∈ arrivals, a.1.Calm) (harrive : Arrive ds calls arrivals) :
    (exec (receive Q.logged) (newMachine (vocoder', []) filter') arrivals).1.codec.vocoder.2 =
      ((ds.zip calls).flatMap fun h => h.1.timeline h.2).map .decode := by
  obtain ⟨hall, hended⟩ := delivered_of_forall₂ hds hended
  have hcodec :=
    (hears_calls (Q := Q.logged) hlisten ⟨rfl, rfl⟩ (clean_newMachine (vocoder', []) filter') (ds.zip calls)
    (fun h hh => hformat h.2 (hall h hh).2) (fun h hh => (hall h hh).1) hended arrivals hcalm harrive).1
  have htimeline : ((ds.zip calls).flatMap fun h => (h.1.playback h.2).filterMap Playback.ambe) =
      (ds.zip calls).flatMap fun h => h.1.timeline h.2 := by
    apply List.flatMap_congr
    intro h hh
    exact Delivery.ambe_playback (hall h hh).1 (hclose h.1 (List.of_mem_zip hh).1)
  have hlog := exec_hear_logged Q.vocoder vocoder' [] (ds.zip calls)
  rw [htimeline, List.nil_append] at hlog
  rw [hcodec]
  exact congrArg Prod.snd hlog

theorem zip_whole (calls : List TxLog) :
    (calls.map Delivery.whole).zip calls = calls.map fun call => (Delivery.whole call, call) := by
  have hzip := List.zip_map' (f := Delivery.whole) (g := id) (l := calls)
  rwa [List.map_id] at hzip

/-- Between the two bridges of `end_to_end`, under the same conditions and without a gap of more than three bursts, the
decoder of the receiver is asked for every burst from the first heard of a call to the last, once and in order: for
the frames that the sender's encoder made, or for lost ones in their place. When nothing is lost it is asked for what
the encoder made and for nothing else. -/
theorem decoder_in_time (P : Params σ φ) (Q : Params τ ψ) (hlisten : Listens Q.config P.config) (vocoder : σ)
    (filter : Option φ) (vocoder' : τ) (filter' : Option ψ) (evs : List (Env × PttEvent))
    (hevs : ∀ e ∈ evs, ∀ x, e.2 ≠ .control x) :
    ∃ calls, SentCalls P vocoder filter evs calls ∧
      (∀ ds, List.Forall₂ Delivery.Of ds calls → (∀ d ∈ ds, d.Close) →
        ∀ arrivals, (∀ a ∈ arrivals, a.1.Calm) → Arrive ds calls arrivals →
          (exec (receive Q.logged) (newMachine (vocoder', []) filter') arrivals).1.codec.vocoder.2 =
            ((ds.zip calls).flatMap fun h => h.1.timeline h.2).map .decode) ∧
      ∀ arrivals, (∀ a ∈ arrivals, a.1.Calm) →
        arrivals.map (·.2) = ((exec (turn P) (newMachine vocoder filter) evs).2.filterMap builtOf).filterMap dmrdOf →
          (exec (receive Q.logged) (newMachine (vocoder', []) filter') arrivals).1.codec.vocoder.2 =
            ((exec (encoding P) (newMachine vocoder filter) evs).2.flatMap Vector.toList).map (.decode ∘ some) := by
  obtain ⟨rotation, superframe, calls, hsent, hformat⟩ := sentCalls_run P vocoder filter evs hevs
  refine ⟨calls, hsent, fun ds hds hclose arrivals hcalm harrive =>
    decodes_calls hlisten vocoder' filter' hsent.ended hformat hds hclose hcalm harrive, fun arrivals hcalm hpkts => ?_⟩
  have hwhole : List.Forall₂ Delivery.Of (calls.map Delivery.whole) calls := by
    rw [List.forall₂_map_left_iff]
    exact List.forall₂_same.mpr fun call _ => Delivery.whole_of call
  have hclose : ∀ d ∈ calls.map Delivery.whole, d.Close := by
    rintro d hd
    obtain ⟨call, -, rfl⟩ := List.mem_map.mp hd
    exact Delivery.whole_close call
  have harrive : Arrive (calls.map Delivery.whole) calls arrivals := by
    rw [Arrive, hpkts, hsent.built, zip_whole, List.flatMap_map]
    congr 1
    apply List.flatMap_congr
    intro call hcall
    exact (Delivery.packets_whole (hformat call hcall)).symm
  have htimelines : (calls.flatMap fun call => (Delivery.whole call).timeline call) =
      (calls.flatMap fun call => call.bursts.flatMap Vector.toList).map some := by
    rw [List.map_flatMap]
    exact List.flatMap_congr fun call _ => Delivery.timeline_whole call
  rw [decodes_calls hlisten vocoder' filter' hsent.ended hformat hwhole hclose hcalm harrive, hsent.encoded, zip_whole,
    List.flatMap_map, List.flatMap_assoc, ← List.map_map]
  exact congrArg (List.map VocoderCall.decode) htimelines

/-- What the network brings of the call when it loses nothing. -/
def broughtOver : List (Env × Dmrd) :=
  (((exec (turn sampleParams) (newMachine () none) keying).2.filterMap builtOf).filterMap dmrdOf).map (sampleEnv 0 0, ·)

theorem decoder_in_time_sample :
    (exec (receive sampleParams.logged) (newMachine ((), []) none) broughtOver).1.codec.vocoder.2 =
      List.replicate 3 (.decode (some (.replicate 9 0))) := by
  obtain ⟨calls, -, -, hwhole⟩ :=
    decoder_in_time sampleParams sampleParams listens_sample () none () none keying keying_audio
  have hcalm : ∀ a ∈ broughtOver, a.1.Calm := by
    intro a ha
    obtain ⟨d, -, rfl⟩ := List.mem_map.mp ha
    exact ⟨rfl, fun _ => ⟨rfl, rfl, rfl⟩⟩
  rw [hwhole broughtOver hcalm (by simp [broughtOver])]
  decide +kernel

end DmrBridge
