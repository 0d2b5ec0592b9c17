import DmrBridge.Dv3000

/-!
# The DV3000 codec

Every packet of the builders reads back as what it was built from, whatever follows it, and a
stream of them is cut where they were joined.
-/

open Endian

namespace DmrBridge

namespace Dv3000

/-- `build_ambe_for_bits` of the `ambe` crate. `none` is the assertion on the payload length. -/
def buildAmbeForBits (bits : UInt8) (data : List UInt8) : Option (List UInt8) :=
  if 2 + data.length ≤ 65535 then some (frame typeAmbe ([fieldChannelData, bits] ++ data)) else none

/-- Channel data of `bits` bits. The 72 of the DMR rate have a variant of their own. -/
def channelPacket (bits : UInt8) (data : List UInt8) : Packet :=
  if bits = ambeBits then .ambe (.ofFn fun i => data.getD i.val 0) else .ambeBits bits data

/-- The bytes that a builder makes and the packet that it makes them of. -/
inductive Built : List UInt8 → Packet → Prop where
  | audio (pcm : PcmFrame) : Built (buildAudio pcm) (.audio pcm)
  | ambe (ambe : AmbeFrame) : Built (buildAmbe ambe) (.ambe ambe)
  /-- `Packet` has no place for the CMODE field. -/
  | ambeLostFrame : Built buildAmbeLostFrame (.ambe (.replicate 9 0))
  | ambeForBits {bits : UInt8} {data buf : List UInt8} (hlen : data.length = dataBytes bits)
      (hbuf : buildAmbeForBits bits data = some buf) : Built buf (channelPacket bits data)
  | reset : Built buildReset (.control controlReset [])
  | ratep (rcws : Bytes 12) : Built (buildRatepCustom rcws.toList) (.control controlRatep rcws.toList)
  | gain (inDb outDb : Int8) :
      Built (buildGain inDb outDb) (.control controlGain [(gainClamp inDb).toUInt8, (gainClamp outDb).toUInt8])
  | prodid : Built buildProdid (.control controlProdid [])
  | prodidResponse {payload : List UInt8} (hlen : payload.length ≤ 65534) :
      Built (buildProdidResponse payload) (.control controlProdid payload)
  | ready : Built buildReady (.control controlReady [])
  | controlAck (fieldId result : UInt8) : Built (buildControlAck fieldId result) (.control fieldId [result])

/-! ## One packet -/

theorem dataBytes_le (bits : UInt8) : dataBytes bits ≤ 32 := by
  have hbits : bits.toNat < 256 := bits.toNat_lt
  unfold dataBytes
  omega

theorem buildAmbeForBits_isSome (bits : UInt8) (data : List UInt8) (h : data.length = dataBytes bits) :
    buildAmbeForBits bits data = some (frame typeAmbe ([fieldChannelData, bits] ++ data)) := by
  have hle := dataBytes_le bits
  rw [buildAmbeForBits, if_pos (by omega)]

theorem parsePayload_channel (bits : UInt8) (data : List UInt8) (h : data.length = dataBytes bits) :
    parsePayload typeAmbe ([fieldChannelData, bits] ++ data) = .ok (channelPacket bits data) := by
  have hdata : data.take (dataBytes bits) = data := List.take_of_length_le (Nat.le_of_eq h)
  rw [parsePayload, if_pos rfl, parseAmbe, if_neg (by simp), if_neg (by simp)]
  simp only [List.cons_append, List.nil_append, List.getD_cons_succ, List.getD_cons_zero, List.length_cons,
    List.drop_succ_cons, List.drop_zero, hdata, channelPacket]
  rw [if_neg (by omega)]
  split <;> rfl

theorem parsePayload_control (fieldId : UInt8) (data : List UInt8) :
    parsePayload typeControl (fieldId :: data) = .ok (.control fieldId data) := by
  rw [parsePayload, if_neg (by decide), if_neg (by decide), if_pos rfl, parseControl]

/-- A builder frames a payload that reads as its packet. -/
theorem Built.payload {buf : List UInt8} {packet : Packet} (h : Built buf packet) :
    ∃ packetType payload, buf = frame packetType payload ∧ payload.length < 65536 ∧
      parsePayload packetType payload = .ok packet := by
  cases h with
  | audio pcm =>
    refine ⟨_, _, rfl, ?_, parsePayload_audio pcm⟩
    simp only [List.length_append, Records.length_flatMap length_sampleBytes, Vector.length_toList]
    decide
  | ambe ambe =>
    refine ⟨_, _, rfl, by simp, ?_⟩
    rw [parsePayload, if_pos rfl]
    simpa using parseAmbe_frame ambe []
  | ambeLostFrame =>
    refine ⟨_, _, rfl, by simp, ?_⟩
    rw [parsePayload, if_pos rfl]
    exact parseAmbe_frame (.replicate 9 0) [fieldCmode, 0x00, 0x04]
  | @ambeForBits bits data _ hlen hbuf =>
    have hle := dataBytes_le bits
    rw [buildAmbeForBits_isSome bits data hlen] at hbuf
    refine ⟨_, _, (Option.some.inj hbuf).symm, ?_, parsePayload_channel bits data hlen⟩
    simp only [List.length_append, List.length_cons, List.length_nil]
    omega
  | reset => exact ⟨_, _, rfl, by simp, parsePayload_control _ _⟩
  | ratep rcws => exact ⟨_, _, rfl, by simp, parsePayload_control _ _⟩
  | gain inDb outDb => exact ⟨_, _, rfl, by simp, parsePayload_control _ _⟩
  | prodid => exact ⟨_, _, rfl, by simp, parsePayload_control _ _⟩
  | prodidResponse hlen =>
    refine ⟨_, _, rfl, ?_, parsePayload_control _ _⟩
    rw [List.length_cons]
    omega
  | ready => exact ⟨_, _, rfl, by simp, parsePayload_control _ _⟩
  | controlAck fieldId result => exact ⟨_, _, rfl, by simp, parsePayload_control _ _⟩

theorem Built.parse {buf : List UInt8} {packet : Packet} (h : Built buf packet) (rest : List UInt8) :
    Dv3000.parse (buf ++ rest) = .ok (packet, buf.length) := by
  obtain ⟨packetType, payload, rfl, hlen, hpayload⟩ := h.payload
  rw [parse_frame packetType payload rest hlen, hpayload, length_frame]
  rfl

/-! ## Any bytes -/

/-- `parse` succeeds on a framed payload with something behind it, and on nothing else. -/
theorem parse_eq_ok {buf : List UInt8} {packet : Packet} {n : Nat} :
    parse buf = .ok (packet, n) ↔ ∃ packetType payload rest, buf = frame packetType payload ++ rest ∧
      payload.length < 65536 ∧ parsePayload packetType payload = .ok packet ∧ n = headerSize + payload.length := by
  constructor
  · intro h
    unfold parse at h
    split at h
    · cases h
    rename_i hheader
    obtain ⟨start, hi, lo, packetType, tail, rfl⟩ : ∃ a b c d tail, buf = a :: b :: c :: d :: tail := by
      rcases buf with _ | ⟨a, _ | ⟨b, _ | ⟨c, _ | ⟨d, tail⟩⟩⟩⟩
      · simp [headerSize] at hheader
      · simp [headerSize] at hheader
      · simp [headerSize] at hheader
      · simp [headerSize] at hheader
      · exact ⟨a, b, c, d, tail, rfl⟩
    split at h
    · cases h
    rename_i hstart
    dsimp only at h
    split at h
    · cases h
    rename_i htotal
    have hstart : start = startByte := by simpa using hstart
    -- The two length bytes are those that framing the payload writes.
    have hbytes : beBytes 2 (ofBeBytes [hi, lo]) = [hi, lo] := beBytes_ofBeBytes [hi, lo]
    have hlt := ofBeBytes_lt [hi, lo]
    simp only [List.length_cons, List.length_nil, Nat.zero_add, Nat.reduceAdd, Nat.reducePow] at hlt
    simp only [List.drop_succ_cons, List.drop_zero, List.take_succ_cons, List.take_zero, headerSize,
      List.length_cons, List.getD_cons_succ, List.getD_cons_zero] at h htotal
    have hlen : (tail.take (ofBeBytes [hi, lo])).length = ofBeBytes [hi, lo] := by
      rw [List.length_take]
      omega
    have hpayload : ((start :: hi :: lo :: packetType :: tail).take (4 + ofBeBytes [hi, lo])).drop 4 =
        tail.take (ofBeBytes [hi, lo]) := by
      rw [Nat.add_comm]
      rfl
    rw [hpayload] at h
    rcases hp : parsePayload packetType (tail.take (ofBeBytes [hi, lo])) with e | p
    · rw [hp] at h
      cases h
    · rw [hp] at h
      cases h
      refine ⟨packetType, tail.take (ofBeBytes [hi, lo]), tail.drop (ofBeBytes [hi, lo]), ?_, by omega, hp, ?_⟩
      · simp [frame, hlen, hbytes, hstart]
      · rw [hlen]
  · rintro ⟨packetType, payload, rest, rfl, hlen, hpayload, rfl⟩
    rw [parse_frame packetType payload rest hlen, hpayload]
    rfl

theorem parse_consumed {buf : List UInt8} {packet : Packet} {n : Nat} (h : parse buf = .ok (packet, n)) :
    4 ≤ n ∧ n ≤ buf.length := by
  obtain ⟨packetType, payload, rest, rfl, -, -, rfl⟩ := parse_eq_ok.mp h
  rw [List.length_append, length_frame]
  unfold headerSize
  omega

theorem parse_prefix {buf buf' : List UInt8} {packet : Packet} {n : Nat} (h : parse buf = .ok (packet, n))
    (hsame : buf'.take n = buf.take n) : parse buf' = .ok (packet, n) := by
  obtain ⟨packetType, payload, rest, rfl, hlen, hpayload, rfl⟩ := parse_eq_ok.mp h
  rw [← length_frame packetType payload, List.take_left] at hsame
  have hsplit := List.take_append_drop (frame packetType payload).length buf'
  rw [hsame] at hsplit
  exact parse_eq_ok.mpr ⟨packetType, payload, _, hsplit.symm, hlen, hpayload, rfl⟩

/-! ## A stream -/

/-- Parses and advances until nothing is left. -/
def parseAll (buf : List UInt8) : Except ParseError (List Packet) :=
  if buf = [] then .ok []
  else
    match h : parse buf with
    | .error e => .error e
    | .ok (packet, consumed) =>
      have := parse_consumed h
      (parseAll (buf.drop consumed)).map (packet :: ·)
termination_by buf.length
decreasing_by
  rw [List.length_drop]
  omega

theorem parseAll_of_parse {buf : List UInt8} {packet : Packet} {n : Nat} (h : parse buf = .ok (packet, n)) :
    parseAll buf = (parseAll (buf.drop n)).map (packet :: ·) := by
  have hne : buf ≠ [] := by
    rintro rfl
    cases h
  rw [parseAll, if_neg hne]
  split
  · rename_i e he
    rw [h] at he
    cases he
  · rename_i packet' n' hok
    rw [h] at hok
    cases hok
    rfl

theorem parseAll_built (built : List (List UInt8 × Packet)) (h : ∀ b ∈ built, Built b.1 b.2) :
    parseAll (built.flatMap (·.1)) = .ok (built.map (·.2)) := by
  induction built with
  | nil =>
    rw [List.flatMap_nil, parseAll, if_pos rfl]
    rfl
  | cons b built ih =>
    have hb := (h b List.mem_cons_self).parse (built.flatMap (·.1))
    have hrest := ih fun c hc => h c (List.mem_cons_of_mem b hc)
    rw [List.flatMap_cons, parseAll_of_parse hb, List.drop_left, hrest]
    rfl

/-! ## The codec -/

theorem dv3000_codec :
    (∀ buf packet, Built buf packet → ∀ rest, parse (buf ++ rest) = .ok (packet, buf.length)) ∧
    (∀ bits data, data.length = dataBytes bits → (buildAmbeForBits bits data).isSome) ∧
    (∀ built : List (List UInt8 × Packet), (∀ b ∈ built, Built b.1 b.2) →
      parseAll (built.flatMap (·.1)) = .ok (built.map (·.2))) ∧
    ∀ buf packet n, parse buf = .ok (packet, n) →
      4 ≤ n ∧ n ≤ buf.length ∧ ∀ buf', buf'.take n = buf.take n → parse buf' = .ok (packet, n) := by
  refine ⟨fun buf packet h => h.parse, ?_, parseAll_built, ?_⟩
  · intro bits data h
    rw [buildAmbeForBits_isSome bits data h]
    rfl
  · intro buf packet n h
    obtain ⟨hmin, hmax⟩ := parse_consumed h
    exact ⟨hmin, hmax, fun buf' => parse_prefix h⟩

/-- The two requests of the client's handshake. -/
def handshake : List (List UInt8 × Packet) :=
  [(buildReset, .control controlReset []), (buildRatepDmr, .control controlRatep ratepDmr)]

theorem dv3000_codec_handshake :
    parseAll (handshake.flatMap (·.1)) = .ok [.control controlReset [], .control controlRatep ratepDmr] := by
  refine dv3000_codec.2.2.1 handshake fun b hb => ?_
  simp only [handshake, List.mem_cons, List.not_mem_nil, or_false] at hb
  rcases hb with rfl | rfl
  · exact .reset
  · exact .ratep ⟨⟨ratepDmr⟩, rfl⟩

end Dv3000

end DmrBridge
