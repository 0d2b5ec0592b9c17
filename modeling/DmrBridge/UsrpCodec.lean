import DmrBridge.Lib.Records
import DmrBridge.Usrp

/-!
# USRP packets, written and read back

The bytes of a sample are in the order of the host, so two hosts of different order see each other's
samples with the bytes exchanged; `byte_swap` exchanges them once more.
-/

open Endian

namespace DmrBridge.Usrp

/-! ## Writing -/

def FrameType.toU32 : FrameType → UInt32
  | .voice => 0
  | .dtmf => 1
  | .text => 2

/-- `i16::to_ne_bytes` -/
def bytesOfSample (host : ByteOrder) (sample : Int16) : List UInt8 :=
  match host with
  | .little => (beBytes 2 sample.toUInt16.toNat).reverse
  | .big => beBytes 2 sample.toUInt16.toNat

def writeSample (host : ByteOrder) (byteSwap : Bool) (sample : Int16) : List UInt8 :=
  if byteSwap then (bytesOfSample host sample).reverse else bytesOfSample host sample

/-- The memory, mpxid and reserved fields are zero. -/
def header (seq keyup talkgroup : UInt32) (frameType : FrameType) : List UInt8 :=
  magic ++ beBytes 4 seq.toNat ++ beBytes 4 0 ++ beBytes 4 keyup.toNat ++ beBytes 4 talkgroup.toNat ++
    beBytes 4 frameType.toU32.toNat ++ beBytes 8 0

def writeAudio (host : ByteOrder) (samples : PcmFrame) (byteSwap : Bool) : List UInt8 :=
  samples.toList.flatMap (writeSample host byteSwap)

/-- A whole packet, of which the first `len` bytes are sent. -/
structure SerializedFrame where
  buf : Bytes packetSize
  len : Nat
  fits : len ≤ packetSize

def SerializedFrame.asBytes (s : SerializedFrame) : List UInt8 := s.buf.toList.take s.len

theorem writeSample_pair (host : ByteOrder) (byteSwap : Bool) (sample : Int16) :
    ∃ b0 b1, writeSample host byteSwap sample = [b0, b1] := by
  cases host <;> cases byteSwap <;> exact ⟨_, _, rfl⟩

theorem length_writeSample (host : ByteOrder) (byteSwap : Bool) (sample : Int16) :
    (writeSample host byteSwap sample).length = 2 := by
  obtain ⟨b0, b1, hbytes⟩ := writeSample_pair host byteSwap sample
  rw [hbytes]
  rfl

theorem length_header (seq keyup talkgroup : UInt32) (frameType : FrameType) :
    (header seq keyup talkgroup frameType).length = headerSize := rfl

theorem length_writeAudio (host : ByteOrder) (samples : PcmFrame) (byteSwap : Bool) :
    (writeAudio host samples byteSwap).length = 320 := by
  unfold writeAudio
  rw [Records.length_flatMap (length_writeSample host byteSwap), Vector.length_toList]

/-- The text is not written. -/
def Frame.packet (host : ByteOrder) (frame : Frame) (byteSwap : Bool) : List UInt8 :=
  header frame.seq frame.keyup.toUInt32 frame.talkgroup frame.frameType ++
    match frame.audio with
    | some samples => writeAudio host samples byteSwap
    | none => List.replicate 320 0

theorem length_packet (host : ByteOrder) (frame : Frame) (byteSwap : Bool) :
    (frame.packet host byteSwap).length = packetSize := by
  unfold Frame.packet
  rw [List.length_append, length_header]
  cases frame.audio with
  | none => rw [List.length_replicate]
  | some samples => rw [length_writeAudio]

def Frame.serialize (host : ByteOrder) (frame : Frame) (byteSwap : Bool) : SerializedFrame where
  buf := ⟨(frame.packet host byteSwap).toArray, length_packet host frame byteSwap⟩
  len := if frame.audio.isSome then packetSize else headerSize
  fits := by
    split
    · exact Nat.le_refl _
    · exact Nat.le_add_right _ _

def serializeText (seq : UInt32) (payload : String) : List UInt8 :=
  header seq 0 0 .text ++ payload.toUTF8.data.toList ++ [0]

/-! ## The header -/

theorem u32At_beBytes (v : UInt32) : UInt32.ofNat (ofBeBytes (beBytes 4 v.toNat)) = v := by
  rw [ofBeBytes_beBytes, Nat.mod_eq_of_lt (by simpa using v.toNat_lt), UInt32.ofNat_toNat]

theorem u32At_header (seq keyup talkgroup : UInt32) (frameType : FrameType) (body : List UInt8) :
    u32At (header seq keyup talkgroup frameType ++ body) 4 = seq ∧
      u32At (header seq keyup talkgroup frameType ++ body) 12 = keyup ∧
      u32At (header seq keyup talkgroup frameType ++ body) 16 = talkgroup ∧
      u32At (header seq keyup talkgroup frameType ++ body) 20 = frameType.toU32 :=
  ⟨u32At_beBytes seq, u32At_beBytes keyup, u32At_beBytes talkgroup, u32At_beBytes frameType.toU32⟩

theorem fromU32_toU32 (frameType : FrameType) : FrameType.fromU32 frameType.toU32 = .ok frameType := by
  cases frameType <;> rfl

theorem parse_header (host : ByteOrder) (byteSwap : Bool) (seq keyup talkgroup : UInt32) (frameType : FrameType)
    (body : List UInt8) (audio : Option PcmFrame) (text : Option (List UInt8))
    (hbody : parseBody host (header seq keyup talkgroup frameType ++ body) byteSwap frameType = .ok (audio, text)) :
    Frame.parse host (header seq keyup talkgroup frameType ++ body) byteSwap =
      .ok { seq, keyup := keyup ≠ 0, talkgroup, frameType, audio, text } := by
  obtain ⟨hseq, hkeyup, htalkgroup, htype⟩ := u32At_header seq keyup talkgroup frameType body
  have hlen : ¬ (header seq keyup talkgroup frameType ++ body).length < headerSize := by
    rw [List.length_append, length_header]
    omega
  have hmagic : (header seq keyup talkgroup frameType ++ body).take 4 = magic := rfl
  unfold Frame.parse
  rw [if_neg hlen, if_neg (not_not_intro hmagic), hseq, hkeyup, htalkgroup, htype, fromU32_toU32]
  show (parseBody host _ byteSwap frameType >>= fun _ => _) = _
  rw [hbody]
  rfl

/-! ## Samples -/

/-- `i16::swap_bytes` -/
def swapBytes (sample : Int16) : Int16 := (UInt16.ofNat (ofBeBytes (beBytes 2 sample.toUInt16.toNat).reverse)).toInt16

theorem sample_beBytes (sample : Int16) :
    (UInt16.ofNat (ofBeBytes (beBytes 2 sample.toUInt16.toNat))).toInt16 = sample := by
  rw [ofBeBytes_beBytes, Nat.mod_eq_of_lt (by simpa using sample.toUInt16.toNat_lt), UInt16.ofNat_toNat]
  rfl

/-- The bytes come back exchanged when just one of the host and the setting differs. -/
theorem readSample_writeSample (host host' : ByteOrder) (byteSwap byteSwap' : Bool) (sample : Int16) {b0 b1 : UInt8}
    (h : writeSample host byteSwap sample = [b0, b1]) :
    readSample host' b0 b1 byteSwap' = if (host' = host ↔ byteSwap' = byteSwap) then sample else swapBytes sample := by
  have hsame := sample_beBytes sample
  unfold swapBytes
  obtain ⟨hi, lo, hbytes⟩ : ∃ hi lo, beBytes 2 sample.toUInt16.toNat = [hi, lo] := ⟨_, _, rfl⟩
  unfold writeSample bytesOfSample at h
  rw [hbytes] at h hsame ⊢
  cases host <;> cases host' <;> cases byteSwap <;> cases byteSwap' <;> cases h <;> first | rfl | exact hsame

theorem readAudio_writeAudio (host host' : ByteOrder) (byteSwap byteSwap' : Bool) (seq keyup talkgroup : UInt32)
    (frameType : FrameType) (samples : PcmFrame) :
    readAudio host' (header seq keyup talkgroup frameType ++ writeAudio host samples byteSwap) byteSwap' =
      if (host' = host ↔ byteSwap' = byteSwap) then samples else samples.map swapBytes := by
  ext1 i hi
  obtain ⟨b0, b1, hbytes⟩ := writeSample_pair host byteSwap samples[i]
  have hpair : ((writeAudio host samples byteSwap).drop (i * 2)).take 2 = [b0, b1] := by
    have hrecord := Records.take_drop_flatMap (length_writeSample host byteSwap) samples.toList [] (i := i)
      (by simpa using hi)
    rw [List.append_nil, Vector.getElem_toList, hbytes] at hrecord
    exact hrecord
  have hget (k : Nat) (hk : k < 2) :
      (header seq keyup talkgroup frameType ++ writeAudio host samples byteSwap).getD (headerSize + i * 2 + k) 0 =
        [b0, b1].getD k 0 := by
    have hidx : headerSize + i * 2 + k - headerSize = i * 2 + k := by omega
    rw [← hpair, List.getD_eq_getElem?_getD, List.getD_eq_getElem?_getD, List.getElem?_take_of_lt hk,
      List.getElem?_drop, List.getElem?_append_right (by rw [length_header]; omega), length_header, hidx]
  have h0 := hget 0 (by decide)
  have h1 := hget 1 (by decide)
  simp only [readAudio, Vector.getElem_ofFn]
  rw [Nat.add_zero] at h0
  rw [h0, h1, List.getD_cons_zero, List.getD_cons_succ, List.getD_cons_zero,
    readSample_writeSample host host' byteSwap byteSwap' samples[i] hbytes]
  split
  · rfl
  · rw [Vector.getElem_map]

/-! ## Packets -/

theorem asBytes_some (host : ByteOrder) (byteSwap : Bool) {frame : Frame} {samples : PcmFrame}
    (h : frame.audio = some samples) :
    (frame.serialize host byteSwap).asBytes =
      header frame.seq frame.keyup.toUInt32 frame.talkgroup frame.frameType ++ writeAudio host samples byteSwap := by
  have hlen := length_packet host frame byteSwap
  unfold SerializedFrame.asBytes Frame.serialize
  simp only [h, Option.isSome_some, if_true]
  rw [Vector.toList_mk, List.toList_toArray, List.take_of_length_le (Nat.le_of_eq hlen)]
  simp only [Frame.packet, h]

theorem asBytes_none (host : ByteOrder) (byteSwap : Bool) {frame : Frame} (h : frame.audio = none) :
    (frame.serialize host byteSwap).asBytes =
      header frame.seq frame.keyup.toUInt32 frame.talkgroup frame.frameType := by
  unfold SerializedFrame.asBytes Frame.serialize
  simp only [h, Option.isSome_none]
  rw [if_neg (by decide), Vector.toList_mk, List.toList_toArray]
  unfold Frame.packet
  rw [List.take_left' (length_header _ _ _ _)]

theorem keyup_toUInt32 (keyup : Bool) : decide (keyup.toUInt32 ≠ 0) = keyup := by
  cases keyup <;> rfl

theorem parse_serialize {frame : Frame} (hvoice : frame.frameType = .voice) (htext : frame.text = none)
    (host host' : ByteOrder) (byteSwap byteSwap' : Bool) :
    Frame.parse host' (frame.serialize host byteSwap).asBytes byteSwap' =
      .ok (if (host' = host ↔ byteSwap' = byteSwap) then frame
        else { frame with audio := frame.audio.map fun samples => samples.map swapBytes }) := by
  obtain ⟨seq, keyup, talkgroup, frameType, audio, text⟩ := frame
  obtain rfl : frameType = .voice := hvoice
  obtain rfl : text = none := htext
  cases audio with
  | none =>
    have hbody : parseBody host' (header seq keyup.toUInt32 talkgroup .voice ++ []) byteSwap' .voice =
      .ok (none, none) := rfl
    have hparse := parse_header host' byteSwap' seq keyup.toUInt32 talkgroup .voice [] none none hbody
    rw [List.append_nil] at hparse
    rw [asBytes_none host byteSwap rfl, hparse, keyup_toUInt32]
    split <;> rfl
  | some samples =>
    have hlen : (header seq keyup.toUInt32 talkgroup .voice ++ writeAudio host samples byteSwap).length =
      packetSize := by
      rw [List.length_append, length_header, length_writeAudio]
    have hbody : parseBody host'
      (header seq keyup.toUInt32 talkgroup .voice ++ writeAudio host samples byteSwap) byteSwap' .voice =
        .ok (some (if (host' = host ↔ byteSwap' = byteSwap) then samples else samples.map swapBytes), none) := by
      unfold parseBody
      rw [if_neg (by rw [hlen]; decide), if_pos (Nat.le_of_eq hlen.symm), readAudio_writeAudio]
    rw [asBytes_some host byteSwap rfl, parse_header _ _ _ _ _ _ _ _ _ hbody, keyup_toUInt32]
    split <;> rfl

theorem parse_serializeText (host : ByteOrder) (byteSwap : Bool) (seq : UInt32) (payload : String) :
    Frame.parse host (serializeText seq payload) byteSwap =
      .ok { seq, keyup := false, talkgroup := 0, frameType := .text, audio := none,
            text := some payload.toUTF8.data.toList } := by
  have hread : readText (header seq 0 0 .text ++ (payload.toUTF8.data.toList ++ [0])) = payload.toUTF8.data.toList := by
    unfold readText
    rw [List.drop_left' (length_header _ _ _ _)]
    simp only
    rw [if_pos List.getLast?_concat, List.dropLast_concat]
  have hbody : parseBody host (header seq 0 0 .text ++ (payload.toUTF8.data.toList ++ [0])) byteSwap .text =
      .ok (none, some payload.toUTF8.data.toList) := by
    show Except.ok (none, some (readText _)) = _
    rw [hread]
  unfold serializeText
  rw [List.append_assoc, parse_header _ _ _ _ _ _ _ _ _ hbody]
  rfl

theorem bind_ok {ε α β : Type} {x : Except ε α} {f : α → Except ε β} {b : β} (h : x >>= f = .ok b) :
    ∃ a, x = .ok a ∧ f a = .ok b := by
  cases x with
  | error e => cases h
  | ok a => exact ⟨a, rfl, h⟩

/-- A packet cut short or padded is not taken for an unkey. -/
theorem parse_voice_length {host : ByteOrder} {buf : List UInt8} {byteSwap : Bool} {frame : Frame}
    (h : Frame.parse host buf byteSwap = .ok frame) (hvoice : frame.frameType = .voice) :
    (buf.length = headerSize ∧ frame.audio = none) ∨ (buf.length = packetSize ∧ frame.audio.isSome) := by
  unfold Frame.parse at h
  split at h
  · cases h
  split at h
  · cases h
  obtain ⟨frameType, -, h⟩ := bind_ok h
  obtain ⟨⟨audio, text⟩, hbody, h⟩ := bind_ok h
  cases h
  obtain rfl : frameType = .voice := hvoice
  simp only [parseBody] at hbody
  split at hbody
  · cases hbody
  · rename_i hlen
    cases hbody
    rcases (by omega : buf.length = headerSize ∨ buf.length = packetSize) with hheader | hpacket
    · have hshort : ¬ packetSize ≤ buf.length := by
        rw [hheader]
        decide
      exact .inl ⟨hheader, if_neg hshort⟩
    · right
      rw [if_pos (Nat.le_of_eq hpacket.symm)]
      exact ⟨hpacket, rfl⟩

theorem usrp_codec (host : ByteOrder) :
    (∀ frame : Frame, frame.frameType = .voice → frame.text = none → ∀ byteSwap,
        Frame.parse host (frame.serialize host byteSwap).asBytes byteSwap = .ok frame ∧
          Frame.parse host (frame.serialize host byteSwap).asBytes (!byteSwap) =
            .ok { frame with audio := frame.audio.map fun samples => samples.map swapBytes } ∧
          ∀ peer, peer ≠ host → Frame.parse peer (frame.serialize host byteSwap).asBytes (!byteSwap) = .ok frame) ∧
      (∀ seq payload byteSwap, Frame.parse host (serializeText seq payload) byteSwap =
        .ok { seq, keyup := false, talkgroup := 0, frameType := .text, audio := none,
              text := some payload.toUTF8.data.toList }) ∧
      ∀ buf byteSwap frame, Frame.parse host buf byteSwap = .ok frame → frame.frameType = .voice →
        (buf.length = 32 ∧ frame.audio = none) ∨ (buf.length = 352 ∧ frame.audio.isSome) := by
  refine ⟨?_, fun seq payload byteSwap => parse_serializeText host byteSwap seq payload,
    fun buf byteSwap frame => parse_voice_length⟩
  intro frame hvoice htext byteSwap
  have hparse := parse_serialize hvoice htext host
  refine ⟨?_, ?_, ?_⟩
  · rw [hparse, if_pos (by simp)]
  · rw [hparse, if_neg (by simp)]
  · intro peer hpeer
    rw [hparse, if_pos (by simpa using hpeer)]

/-- A keyed frame, and a text that ends in NUL. -/
theorem usrp_codec_sample :
    (let frame : Frame :=
      { seq := 42, keyup := true, talkgroup := 2, frameType := .voice, audio := some (.replicate 160 100),
        text := none }
     Frame.parse .little (frame.serialize .little true).asBytes true = .ok frame) ∧
      (Frame.parse .big (serializeText 7 "a\x00") false).map Frame.text = .ok (some [97, 0]) := by
  obtain ⟨hvoice, htext, -⟩ := usrp_codec .little
  obtain ⟨-, htext, -⟩ := usrp_codec .big
  exact ⟨(hvoice _ rfl rfl true).1, by rw [htext]; rfl⟩

end DmrBridge.Usrp
