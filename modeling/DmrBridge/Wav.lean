import DmrBridge.Lib.Riff

/-!
# The recorder of a call

`pcm_utils::wav`. The sizes of the file are zero until the recorder is dropped. An error on the way
drops it at once, and the rest of the call is not recorded.
-/

open Riff

namespace DmrBridge

namespace Wav

def sampleRate : UInt32 := 8000
def channels : UInt16 := 1
def bits : UInt16 := 16
def fmtChunkSize : UInt32 := 16
def maxSamples : UInt32 := (0xFFFFFFFF - 36) / 2

/-- `to_le_bytes` -/
def le16 (v : UInt16) : List UInt8 := leBytes 2 v.toNat
def le32 (v : UInt32) : List UInt8 := leBytes 4 v.toNat

inductive WavError where
  | writeAfterFinalize
  | pcmChunkTooLarge
  | sizeCapReached
  | io
  deriving DecidableEq

end Wav

open Wav

/-- `writer` is what the buffered writer has taken, `file` what `finalize` has left in the file. -/
structure WavRecorder where
  writer : List UInt8
  file : List UInt8
  samplesWritten : UInt32
  finalized : Bool

/-- How many bytes the flush and each patch get through. A patch whose seek fails gets through none. -/
structure Disk where
  flushed : Nat
  riff : Nat
  data : Nat

namespace WavRecorder

/-! ## Steps -/

/-- The header of `create`, up to its last field. -/
def header (riffSize : UInt32) : List UInt8 :=
  let byteRate := sampleRate * channels.toUInt32 * bits.toUInt32 / 8
  let blockAlign := channels * bits / 8
  riffId ++ le32 riffSize ++ waveId ++ fmtId ++ le32 fmtChunkSize ++ le16 1 ++ le16 channels ++ le32 sampleRate ++
    le32 byteRate ++ le16 blockAlign ++ le16 bits ++ dataId

def create : WavRecorder where
  writer := header 0 ++ le32 0
  file := []
  samplesWritten := 0
  finalized := false

/-- The writer takes `taken` samples and fails at the next. -/
def write (rec : WavRecorder) (pcm : List Int16) (taken : Nat) : WavRecorder × Except WavError Unit :=
  if rec.finalized then (rec, .error .writeAfterFinalize)
  else if 2 ^ 32 ≤ pcm.length then (rec, .error .pcmChunkTooLarge)
  else if maxSamples.toNat < rec.samplesWritten.toNat + pcm.length then (rec, .error .sizeCapReached)
  else
    let writer := rec.writer ++ (pcm.take taken).flatMap sampleBytes
    if taken < pcm.length then ({ rec with writer }, .error .io)
    else ({ rec with writer, samplesWritten := rec.samplesWritten + UInt32.ofNat pcm.length }, .ok ())

def saturatingMul (a b : UInt32) : UInt32 := UInt32.ofNat (min (a.toNat * b.toNat) 0xFFFFFFFF)
def saturatingAdd (a b : UInt32) : UInt32 := UInt32.ofNat (min (a.toNat + b.toNat) 0xFFFFFFFF)

def finalize (rec : WavRecorder) (disk : Disk) : WavRecorder × Except WavError Unit :=
  if rec.finalized then (rec, .ok ())
  else
    let dataSize := le32 (saturatingMul rec.samplesWritten 2)
    let riffSize := le32 (saturatingAdd (saturatingMul rec.samplesWritten 2) 36)
    let file := rec.writer.take disk.flushed
    if disk.flushed < rec.writer.length then ({ rec with finalized := true, file }, .error .io)
    else
      let file := overwrite file 4 (riffSize.take disk.riff)
      if disk.riff < riffSize.length then ({ rec with finalized := true, file }, .error .io)
      else
        let file := overwrite file 40 (dataSize.take disk.data)
        ({ rec with finalized := true, file }, if disk.data < dataSize.length then .error .io else .ok ())

end WavRecorder

/-- The recorder of a call, and the file of a recorder that was dropped. -/
inductive Recording where
  | recording (rec : WavRecorder)
  | dropped (file : List UInt8) (result : Except WavError Unit)

namespace Recording

/-- `Drop` has nobody to tell of an error. -/
def drop (disk : Disk) : Recording → Recording
  | recording rec => dropped (rec.finalize disk).1.file (rec.finalize disk).2
  | dropped file result => dropped file result

/-- `record_pcm` -/
def recordPcm (r : Recording) (pcm : List Int16) (taken : Nat) (disk : Disk) : Recording :=
  match r with
  | recording rec =>
    match rec.write pcm taken with
    | (rec, .ok _) => recording rec
    | (rec, .error _) => drop disk (recording rec)
  | dropped file result => dropped file result

/-- A frame of the call with what the disk makes of it. -/
structure Take where
  pcm : List Int16
  taken : Nat
  disk : Disk

def record (r : Recording) (t : Take) : Recording := r.recordPcm t.pcm t.taken t.disk

/-! ## What the file holds -/

/-- The samples of the frames before the first that the disk or the cap refuses. -/
def kept (written : Nat) : List Take → List Int16
  | [] => []
  | t :: ts =>
    if t.pcm.length ≤ t.taken ∧ written + t.pcm.length ≤ maxSamples.toNat then
      t.pcm ++ kept (written + t.pcm.length) ts
    else []

theorem kept_all (written : Nat) (ts : List Take) (htaken : ∀ t ∈ ts, t.pcm.length ≤ t.taken)
    (hcap : written + (ts.flatMap (·.pcm)).length ≤ maxSamples.toNat) : kept written ts = ts.flatMap (·.pcm) := by
  induction ts generalizing written with
  | nil => rfl
  | cons t ts ih =>
    obtain ⟨ht, hts⟩ := List.forall_mem_cons.mp htaken
    rw [List.flatMap_cons, List.length_append] at hcap
    rw [kept, if_pos ⟨ht, by omega⟩, ih (written + t.pcm.length) hts (by omega), List.flatMap_cons]

def callWave (samples : List Int16) : Wave where
  channels := 1
  sampleRate := 8000
  byteRate := 16000
  blockAlign := 2
  bits := 16
  samples := samples

/-- The writer has the header, the samples that count and what a failed write has left behind. -/
structure Holds (rec : WavRecorder) (samples : List Int16) (leftover : List UInt8) : Prop where
  writer : rec.writer = WavRecorder.header 0 ++ le32 0 ++ samples.flatMap sampleBytes ++ leftover
  written : rec.samplesWritten.toNat = samples.length
  cap : samples.length ≤ maxSamples.toNat
  isOpen : rec.finalized = false

theorem holds_create : Holds WavRecorder.create [] [] where
  writer := by simp [WavRecorder.create]
  written := rfl
  cap := Nat.zero_le _
  isOpen := rfl

theorem write_ok {rec : WavRecorder} {samples pcm : List Int16} {taken : Nat} (h : Holds rec samples [])
    (htaken : pcm.length ≤ taken) (hcap : samples.length + pcm.length ≤ maxSamples.toNat) :
    ∃ rec', rec.write pcm taken = (rec', .ok ()) ∧ Holds rec' (samples ++ pcm) [] := by
  have hmax : maxSamples.toNat < 2 ^ 32 := maxSamples.toNat_lt
  unfold WavRecorder.write
  rw [h.isOpen, if_neg Bool.false_ne_true, if_neg (by omega), if_neg (by rw [h.written]; omega)]
  dsimp only
  rw [if_neg (by omega), List.take_of_length_le htaken]
  refine ⟨_, rfl, ?_, ?_, ?_, rfl⟩
  · simp [h.writer]
  · have hpcm : (UInt32.ofNat pcm.length).toNat = pcm.length := UInt32.toNat_ofNat_of_lt' (show _ < 2 ^ 32 by omega)
    rw [UInt32.toNat_add, hpcm, h.written, List.length_append]
    exact Nat.mod_eq_of_lt (by omega)
  · rw [List.length_append]
    exact hcap

/-- A write that fails counts for nothing, whatever part of it the writer has taken. -/
theorem write_error {rec : WavRecorder} {samples pcm : List Int16} {taken : Nat} (h : Holds rec samples [])
    (hfail : ¬ (pcm.length ≤ taken ∧ samples.length + pcm.length ≤ maxSamples.toNat)) :
    ∃ rec' e leftover, rec.write pcm taken = (rec', .error e) ∧ Holds rec' samples leftover := by
  have hmax : maxSamples.toNat < 2 ^ 32 := maxSamples.toNat_lt
  unfold WavRecorder.write
  rw [h.isOpen, if_neg Bool.false_ne_true]
  split
  · exact ⟨_, _, _, rfl, h⟩
  split
  · exact ⟨_, _, _, rfl, h⟩
  · rename_i hroom
    rw [h.written] at hroom
    dsimp only
    rw [if_pos (by omega)]
    refine ⟨_, _, (pcm.take taken).flatMap sampleBytes, rfl, ?_, h.written, h.cap, rfl⟩
    simp [h.writer]

/-! ## The sizes -/

theorem toNat_dataSize {samples : List Int16} {written : UInt32} (h : written.toNat = samples.length)
    (hcap : samples.length ≤ maxSamples.toNat) : (WavRecorder.saturatingMul written 2).toNat = 2 * samples.length := by
  have hmax : maxSamples.toNat = 2147483629 := by decide
  have htwo : (2 : UInt32).toNat = 2 := rfl
  rw [WavRecorder.saturatingMul, h, htwo, UInt32.toNat_ofNat_of_lt' (show _ < 2 ^ 32 by omega)]
  omega

theorem toNat_riffSize {samples : List Int16} {written : UInt32} (h : written.toNat = samples.length)
    (hcap : samples.length ≤ maxSamples.toNat) :
    (WavRecorder.saturatingAdd (WavRecorder.saturatingMul written 2) 36).toNat = 36 + 2 * samples.length := by
  have hmax : maxSamples.toNat = 2147483629 := by decide
  have hfield : (36 : UInt32).toNat = 36 := rfl
  rw [WavRecorder.saturatingAdd, toNat_dataSize h hcap, hfield, UInt32.toNat_ofNat_of_lt' (show _ < 2 ^ 32 by omega)]
  omega

theorem header_append (riffSize : UInt32) (rest : List UInt8) :
    WavRecorder.header riffSize ++ rest = riffId ++ (le32 riffSize ++ (waveId ++ fmtId ++ le32 fmtChunkSize ++ le16 1 ++
      le16 channels ++ le32 sampleRate ++ le32 (sampleRate * channels.toUInt32 * bits.toUInt32 / 8) ++
      le16 (channels * bits / 8) ++ le16 bits ++ dataId ++ rest)) := by
  simp [WavRecorder.header]

theorem length_header (riffSize : UInt32) : (WavRecorder.header riffSize).length = 40 := by
  simp [WavRecorder.header, le32, le16, riffId, waveId, fmtId, dataId]

theorem fits_callWave {samples : List Int16} (hcap : samples.length ≤ maxSamples.toNat) : (callWave samples).Fits where
  fields := by simp [callWave, Wave.fields]
  size := by
    have hmax : maxSamples.toNat = 2147483629 := by decide
    show 36 + 2 * samples.length < 2 ^ 32
    omega

/-- With its sizes patched in, the header is that of the file. -/
theorem header_patched {samples : List Int16} {riffSize dataSize : UInt32}
    (hriff : riffSize.toNat = 36 + 2 * samples.length)
    (hdata : dataSize.toNat = 2 * samples.length) (leftover : List UInt8) :
    WavRecorder.header riffSize ++ (le32 dataSize ++ (samples.flatMap sampleBytes ++ leftover)) =
      writeChunk ⟨riffId, waveBody (callWave samples)⟩ ++ leftover := by
  have hlength : (samples.flatMap sampleBytes).length = 2 * samples.length := length_flatMap_sampleBytes samples
  have hbody : (waveBody (callWave samples)).length = 36 + 2 * samples.length := by
    simp only [waveBody, writeChunk, List.length_append, length_leBytes, length_fields]
    show 4 + (4 + 4 + 16) + (4 + 4 + (samples.flatMap sampleBytes).length) = _
    omega
  have hsamples : (callWave samples).samples = samples := rfl
  have hsizes : le32 riffSize = leBytes 4 (36 + 2 * samples.length) ∧
    le32 dataSize = leBytes 4 (2 * samples.length) := by
    rw [le32, le32, hriff, hdata]
    exact ⟨rfl, rfl⟩
  rw [header_append, hsizes.1, hsizes.2, writeChunk, hbody]
  simp only [waveBody, writeChunk, length_fields, hsamples, hlength]
  simp [writeFields, Wave.fields, callWave, le16, le32, fmtChunkSize, channels, sampleRate, bits]

theorem finalize_ok {rec : WavRecorder} {disk : Disk} (hopen : rec.finalized = false)
    (hok : (rec.finalize disk).2 = .ok ()) :
    rec.writer.length ≤ disk.flushed ∧ 4 ≤ disk.riff ∧ 4 ≤ disk.data := by
  have hfour (v : UInt32) : (le32 v).length = 4 := length_leBytes 4 v.toNat
  unfold WavRecorder.finalize at hok
  rw [hopen, if_neg Bool.false_ne_true] at hok
  dsimp only at hok
  rw [hfour, hfour] at hok
  split at hok
  · simp at hok
  split at hok
  · simp at hok
  · split at hok
    · simp at hok
    · omega

theorem finalize_file {rec : WavRecorder} {samples : List Int16} {leftover : List UInt8} {disk : Disk}
    (h : Holds rec samples leftover) (hok : (rec.finalize disk).2 = .ok ()) :
    (rec.finalize disk).1.file = writeChunk ⟨riffId, waveBody (callWave samples)⟩ ++ leftover := by
  obtain ⟨hflushed, hriff, hdata⟩ := finalize_ok h.isOpen hok
  have hfour (v : UInt32) : (le32 v).length = 4 := length_leBytes 4 v.toNat
  have htake {v : UInt32} {n : Nat} (hn : 4 ≤ n) : (le32 v).take n = le32 v :=
    List.take_of_length_le (by rw [hfour]; exact hn)
  have hwriter : rec.writer = riffId ++ (le32 0 ++ (waveId ++ fmtId ++ le32 fmtChunkSize ++ le16 1 ++ le16 channels ++
      le32 sampleRate ++ le32 (sampleRate * channels.toUInt32 * bits.toUInt32 / 8) ++ le16 (channels * bits / 8) ++
      le16 bits ++ dataId ++ (le32 0 ++ (samples.flatMap sampleBytes ++ leftover)))) := by
    rw [h.writer, ← header_append]
    simp
  unfold WavRecorder.finalize
  rw [h.isOpen, if_neg Bool.false_ne_true]
  dsimp only
  rw [if_neg (by omega), if_neg (by rw [hfour]; omega)]
  dsimp only
  rw [List.take_of_length_le hflushed, htake hriff, htake hdata, hwriter,
    overwrite_append riffId _ (show riffId.length = 4 from rfl) (by rw [hfour, hfour]), ← header_append,
    overwrite_append _ _ (length_header _) (by rw [hfour, hfour])]
  exact header_patched (toNat_riffSize h.written h.cap) (toNat_dataSize h.written h.cap) leftover

/-- A recorder that is dropped leaves a file of the samples that count. -/
theorem drop_file {rec : WavRecorder} {samples : List Int16} {leftover file : List UInt8} {disk : Disk}
    (h : Holds rec samples leftover) (hdrop : drop disk (recording rec) = dropped file (.ok ())) :
    readWave file = some (callWave samples) := by
  simp only [drop, dropped.injEq] at hdrop
  rw [← hdrop.1, finalize_file h hdrop.2, readWave_append leftover (fits_callWave h.cap)]

/-! ## A whole call -/

theorem record_dropped (ts : List Take) (file : List UInt8) (result : Except WavError Unit) :
    ts.foldl record (dropped file result) = dropped file result := by
  induction ts with
  | nil => rfl
  | cons t ts ih => exact ih

theorem reads_back_from {rec : WavRecorder} {samples : List Int16} {file : List UInt8} {disk : Disk}
    (h : Holds rec samples [])
    (ts : List Take) (hdrop : drop disk (ts.foldl record (recording rec)) = dropped file (.ok ())) :
    readWave file = some (callWave (samples ++ kept samples.length ts)) := by
  induction ts generalizing rec samples with
  | nil =>
    rw [kept, List.append_nil]
    exact drop_file h hdrop
  | cons t ts ih =>
    rw [List.foldl_cons] at hdrop
    by_cases hfits : t.pcm.length ≤ t.taken ∧ samples.length + t.pcm.length ≤ maxSamples.toNat
    · obtain ⟨rec', hwrite, h'⟩ := write_ok h hfits.1 hfits.2
      have hrecord : record (recording rec) t = recording rec' := by rw [record, recordPcm, hwrite]
      rw [hrecord] at hdrop
      rw [kept, if_pos hfits, ← List.append_assoc, ← List.length_append]
      exact ih h' hdrop
    · -- The recorder is dropped here, and the rest of the call changes nothing.
      obtain ⟨rec', e, leftover, hwrite, h'⟩ := write_error h hfits
      have hrecord : record (recording rec) t = drop t.disk (recording rec') := by rw [record, recordPcm, hwrite]
      rw [hrecord] at hdrop
      rw [kept, if_neg hfits, List.append_nil]
      have hdropped : drop t.disk (recording rec') = dropped file (.ok ()) := by
        rw [← hdrop]
        simp only [drop, record_dropped]
      exact drop_file h' hdropped

/-- Whatever the disk does during a call, a file that is finished in the end reads back as 8 kHz mono of the
samples before the first refused write. -/
theorem reads_back (ts : List Take) (disk : Disk) (file : List UInt8)
    (hdrop : drop disk (ts.foldl record (recording WavRecorder.create)) = dropped file (.ok ())) :
    readWave file = some (callWave (kept 0 ts)) := reads_back_from holds_create ts hdrop

/-- The disk is full in the second frame, after one of its samples. -/
theorem reads_back_sample :
    ∃ file, drop ⟨100, 4, 4⟩ (List.foldl record (recording WavRecorder.create)
        [⟨[1, 2], 2, ⟨0, 0, 0⟩⟩, ⟨[3, 4], 1, ⟨50, 4, 4⟩⟩, ⟨[5, 6], 2, ⟨0, 0, 0⟩⟩]) = dropped file (.ok ()) ∧
      readWave file = some (callWave [1, 2]) :=
  ⟨_, rfl, reads_back [⟨[1, 2], 2, ⟨0, 0, 0⟩⟩, ⟨[3, 4], 1, ⟨50, 4, 4⟩⟩, ⟨[5, 6], 2, ⟨0, 0, 0⟩⟩] ⟨100, 4, 4⟩ _ rfl⟩

end Recording

end DmrBridge
