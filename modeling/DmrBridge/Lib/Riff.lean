import DmrBridge.Lib.Endian
import DmrBridge.Lib.Records

/-!
# RIFF files

Little-endian integers, chunks and their reader, and the WAVE form with 16-bit PCM in it.
-/

open Endian

namespace Riff

/-! ## Little-endian integers -/

def leBytes (k v : Nat) : List UInt8 := (beBytes k v).reverse
def ofLeBytes (l : List UInt8) : Nat := ofBeBytes l.reverse

@[simp]
theorem length_leBytes (k v : Nat) : (leBytes k v).length = k := by simp [leBytes]

theorem ofLeBytes_leBytes {k v : Nat} (h : v < 256 ^ k) : ofLeBytes (leBytes k v) = v := by
  rw [ofLeBytes, leBytes, List.reverse_reverse, ofBeBytes_beBytes, Nat.mod_eq_of_lt h]

/-! ## Fields one after the other -/

/-- Each with its width. -/
def writeFields (fields : List (Nat × Nat)) : List UInt8 := fields.flatMap fun f => leBytes f.1 f.2

def readFields : List Nat → List UInt8 → List Nat
  | [], _ => []
  | k :: ks, bytes => ofLeBytes (bytes.take k) :: readFields ks (bytes.drop k)

theorem readFields_writeFields {fields : List (Nat × Nat)} (h : ∀ f ∈ fields, f.2 < 256 ^ f.1) :
    readFields (fields.map Prod.fst) (writeFields fields) = fields.map Prod.snd := by
  induction fields with
  | nil => rfl
  | cons f fields ih =>
    rw [List.forall_mem_cons] at h
    have hrest : readFields (fields.map Prod.fst) (writeFields fields) = fields.map Prod.snd := ih h.2
    rw [writeFields, List.flatMap_cons, List.map_cons, readFields, List.take_left' (length_leBytes ..),
      List.drop_left' (length_leBytes ..), ofLeBytes_leBytes h.1, ← writeFields, hrest, List.map_cons]

/-! ## Chunks -/

/-- Name, size and body. A body of odd size is followed by a byte of padding. -/
structure Chunk where
  id : List UInt8
  body : List UInt8

/-- The chunk at the front, and what follows it. -/
def readChunk (bytes : List UInt8) : Option (Chunk × List UInt8) :=
  let size := ofLeBytes ((bytes.drop 4).take 4)
  if bytes.length < 8 + size then none
  else some (⟨bytes.take 4, (bytes.drop 8).take size⟩, bytes.drop (8 + size + size % 2))

def writeChunk (c : Chunk) : List UInt8 := c.id ++ leBytes 4 c.body.length ++ c.body

theorem readChunk_append {c : Chunk} (rest : List UInt8) (hid : c.id.length = 4) (hsize : c.body.length < 2 ^ 32)
    (heven : c.body.length % 2 = 0) : readChunk (writeChunk c ++ rest) = some (c, rest) := by
  have hhead : writeChunk c ++ rest = c.id ++ (leBytes 4 c.body.length ++ (c.body ++ rest)) := by simp [writeChunk]
  have hfield : (((writeChunk c ++ rest).drop 4).take 4) = leBytes 4 c.body.length := by
    rw [hhead, List.drop_left' hid, List.take_left' (length_leBytes ..)]
  have hbody : (writeChunk c ++ rest).drop 8 = c.body ++ rest := by
    rw [hhead, ← List.append_assoc, List.drop_left' (by simp [hid])]
  have hname : (writeChunk c ++ rest).take 4 = c.id := by rw [hhead, List.take_left' hid]
  have hlength : ¬ (writeChunk c ++ rest).length < 8 + c.body.length := by
    simp only [hhead, List.length_append, length_leBytes, hid]
    omega
  have hrest : (writeChunk c ++ rest).drop (8 + c.body.length) = rest := by
    rw [← List.drop_drop, hbody, List.drop_left]
  unfold readChunk
  dsimp only
  rw [hfield, ofLeBytes_leBytes hsize, if_neg hlength, hname, hbody, List.take_left, heven, Nat.add_zero, hrest]

/-! ## WAVE -/

structure Wave where
  channels : Nat
  sampleRate : Nat
  byteRate : Nat
  blockAlign : Nat
  bits : Nat
  samples : List Int16
  deriving DecidableEq

def sampleBytes (sample : Int16) : List UInt8 := leBytes 2 sample.toUInt16.toNat

def readSamples : List UInt8 → List Int16
  | low :: high :: bytes => (UInt16.ofNat (ofLeBytes [low, high])).toInt16 :: readSamples bytes
  | _ => []

def riffId : List UInt8 := [0x52, 0x49, 0x46, 0x46]
def waveId : List UInt8 := [0x57, 0x41, 0x56, 0x45]
def fmtId : List UInt8 := [0x66, 0x6D, 0x74, 0x20]
def dataId : List UInt8 := [0x64, 0x61, 0x74, 0x61]

/-- The first field says that the samples are PCM. -/
def Wave.ofFields (fields : List Nat) (samples : List Int16) : Option Wave :=
  match fields with
  | [1, channels, sampleRate, byteRate, blockAlign, bits] =>
    some { channels, sampleRate, byteRate, blockAlign, bits, samples }
  | _ => none

/-- PCM in a RIFF file of form WAVE, whose chunks are a format and then the data. -/
def readWave (file : List UInt8) : Option Wave := do
  let (riff, _) ← readChunk file
  guard (riff.id = riffId ∧ riff.body.take 4 = waveId)
  let (fmt, rest) ← readChunk (riff.body.drop 4)
  guard (fmt.id = fmtId ∧ fmt.body.length = 16)
  let (data, _) ← readChunk rest
  guard (data.id = dataId)
  Wave.ofFields (readFields [2, 2, 4, 4, 2, 2] fmt.body) (readSamples data.body)

def Wave.fields (w : Wave) : List (Nat × Nat) :=
  [(2, 1), (2, w.channels), (4, w.sampleRate), (4, w.byteRate), (2, w.blockAlign), (2, w.bits)]

def waveBody (w : Wave) : List UInt8 :=
  waveId ++ writeChunk ⟨fmtId, writeFields w.fields⟩ ++ writeChunk ⟨dataId, w.samples.flatMap sampleBytes⟩

/-- The fields of the format fit their widths, and the sizes theirs. -/
structure Wave.Fits (w : Wave) : Prop where
  fields : ∀ f ∈ w.fields, f.2 < 256 ^ f.1
  size : 36 + 2 * w.samples.length < 2 ^ 32

theorem length_sampleBytes (sample : Int16) : (sampleBytes sample).length = 2 := length_leBytes 2 _

theorem length_flatMap_sampleBytes (samples : List Int16) :
    (samples.flatMap sampleBytes).length = 2 * samples.length := by
  induction samples with
  | nil => rfl
  | cons s samples ih =>
    rw [List.flatMap_cons, List.length_append, ih, length_sampleBytes, List.length_cons]
    omega

theorem readSamples_flatMap (samples : List Int16) : readSamples (samples.flatMap sampleBytes) = samples := by
  induction samples with
  | nil => rfl
  | cons s samples ih =>
    obtain ⟨low, high, hbytes⟩ : ∃ low high, sampleBytes s = [low, high] := ⟨_, _, rfl⟩
    have hvalue : ofLeBytes [low, high] = s.toUInt16.toNat := by
      rw [← hbytes]
      exact ofLeBytes_leBytes s.toUInt16.toNat_lt
    rw [List.flatMap_cons, hbytes]
    show (UInt16.ofNat (ofLeBytes [low, high])).toInt16 :: readSamples (samples.flatMap sampleBytes) = s :: samples
    rw [hvalue, ih, UInt16.ofNat_toNat]
    rfl

theorem length_fields (w : Wave) : (writeFields w.fields).length = 16 := by simp [writeFields, Wave.fields]

/-- A file reads back, whatever follows it. -/
theorem readWave_append {w : Wave} (rest : List UInt8) (h : w.Fits) :
    readWave (writeChunk ⟨riffId, waveBody w⟩ ++ rest) = some w := by
  have hdata : (w.samples.flatMap sampleBytes).length = 2 * w.samples.length := length_flatMap_sampleBytes w.samples
  have hsize := h.size
  have hbody : (waveBody w).length = 36 + 2 * w.samples.length := by
    simp only [waveBody, writeChunk, List.length_append, length_leBytes, length_fields, hdata]
    show 4 + (4 + 4 + 16) + (4 + 4 + 2 * w.samples.length) = _
    omega
  have hriff : readChunk (writeChunk ⟨riffId, waveBody w⟩ ++ rest) = some (⟨riffId, waveBody w⟩, rest) :=
    readChunk_append rest rfl (by show (waveBody w).length < _; omega) (by show (waveBody w).length % 2 = 0; omega)
  have hform : (waveBody w).take 4 = waveId := by rw [waveBody, List.append_assoc]; rfl
  have hchunks : (waveBody w).drop 4 =
      writeChunk ⟨fmtId, writeFields w.fields⟩ ++ writeChunk ⟨dataId, w.samples.flatMap sampleBytes⟩ := by
    rw [waveBody, List.append_assoc]; rfl
  have hfmt : readChunk ((waveBody w).drop 4) =
      some (⟨fmtId, writeFields w.fields⟩, writeChunk ⟨dataId, w.samples.flatMap sampleBytes⟩) := by
    rw [hchunks]
    exact readChunk_append _ rfl (by rw [length_fields]; decide) (by rw [length_fields])
  have hsamples : readChunk (writeChunk ⟨dataId, w.samples.flatMap sampleBytes⟩) =
      some (⟨dataId, w.samples.flatMap sampleBytes⟩, []) := by
    rw [← List.append_nil (writeChunk _)]
    exact readChunk_append [] rfl (by simp only [hdata]; omega) (by simp only [hdata]; omega)
  have hfields : readFields [2, 2, 4, 4, 2, 2] (writeFields w.fields) = w.fields.map Prod.snd :=
    readFields_writeFields h.fields
  have hwave : Wave.ofFields (w.fields.map Prod.snd) w.samples = some w := rfl
  simp [readWave, hriff, hform, hfmt, length_fields, hsamples, hfields, readSamples_flatMap, hwave, guard]

/-! ## A file written over in place -/

def overwrite (file : List UInt8) (off : Nat) (bytes : List UInt8) : List UInt8 :=
  file.take off ++ bytes ++ file.drop (off + bytes.length)

theorem overwrite_append {old bytes : List UInt8} (pre rest : List UInt8) {off : Nat} (hoff : pre.length = off)
    (h : old.length = bytes.length) : overwrite (pre ++ (old ++ rest)) off bytes = pre ++ (bytes ++ rest) := by
  rw [overwrite, List.take_left' hoff, ← List.drop_drop, List.drop_left' hoff, ← h, List.drop_left, List.append_assoc]

end Riff
