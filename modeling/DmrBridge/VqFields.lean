import DmrBridge.VoiceChannelDecode

/-!
# VQ indices in an AMBE frame

The nine indices of the neural vocoder, scattered over the 49 codec bits and gathered from them.
-/

open MsbBits DmrBridge.VoiceChannel

namespace DmrBridge

structure Field where
  name : String
  bits : Nat
  vqSize : Nat
  /-- From the highest bit of the index down. -/
  ambeD : List (Fin 49)

def fieldsDmr3600x2450 : Vector Field 9 := #v[
  { name := "b0", bits := 7, vqSize := 128, ambeD := [0, 1, 2, 3, 37, 38, 39] },
  { name := "b1", bits := 5, vqSize := 32, ambeD := [4, 5, 6, 7, 35] },
  { name := "b2", bits := 5, vqSize := 32, ambeD := [8, 9, 10, 11, 36] },
  { name := "b3", bits := 9, vqSize := 512, ambeD := [12, 13, 14, 15, 16, 17, 18, 19, 40] },
  { name := "b4", bits := 7, vqSize := 128, ambeD := [20, 21, 22, 23, 41, 42, 43] },
  { name := "b5", bits := 5, vqSize := 32, ambeD := [24, 25, 26, 27, 44] },
  { name := "b6", bits := 4, vqSize := 16, ambeD := [28, 29, 30, 45] },
  { name := "b7", bits := 4, vqSize := 16, ambeD := [31, 32, 33, 46] },
  { name := "b8", bits := 3, vqSize := 8, ambeD := [34, 47, 48] }]

abbrev VqIndices := Vector Nat 9

def scatterField (field : Field) (value : Nat) (ambeD : Bits 49) : Bits 49 :=
  field.ambeD.zipIdx.foldl (fun d p => setAt d p.1 (value.testBit (field.bits - 1 - p.2))) ambeD

def scatterVq (vq : VqIndices) : Bits 49 :=
  (List.finRange 9).foldl (fun d j => scatterField (fieldsDmr3600x2450.get j) (vq.get j) d) (.replicate 49 false)

/-- `encode_real_frame` after the inference. -/
def encodeVqFrame (vq : VqIndices) : AmbeFrame := encodeFromAmbeD (scatterVq vq)

def gatherField (field : Field) (ambeD : Bits 49) : Nat :=
  field.ambeD.zipIdx.foldl (fun v p => v ||| (ambeD.get p.1).toNat <<< (field.bits - 1 - p.2)) 0

def frameToVq (frame : AmbeFrame) : VqIndices :=
  let ambeD := unpackMsbFirst (toSourceBits frame)
  .ofFn fun j => gatherField (fieldsDmr3600x2450.get j) ambeD

/-! ## Scattering -/

/-- The writes of all fields: the field, the position and the shift of the bit. -/
def fieldWrites : List (Fin 9 × Fin 49 × Nat) :=
  (List.finRange 9).flatMap fun j =>
    (fieldsDmr3600x2450.get j).ambeD.zipIdx.map fun p => (j, p.1, (fieldsDmr3600x2450.get j).bits - 1 - p.2)

def writerOf (pos : Fin 49) : Fin 9 × Fin 49 × Nat := (fieldWrites.find? fun w => w.2.1 = pos).getD (Fin.last 8, pos, 0)

theorem writerOf_write : ∀ w ∈ fieldWrites, writerOf w.2.1 = w := by
  decide +kernel

theorem scatterVq_eq (vq : VqIndices) :
    scatterVq vq = fieldWrites.foldl (fun d w => setAt d w.2.1 ((vq.get w.1).testBit w.2.2)) (.replicate 49 false) := by
  unfold scatterVq scatterField fieldWrites
  rw [List.foldl_flatMap]
  congr 1
  funext d j
  rw [List.foldl_map]

theorem scatterVq_get (vq : VqIndices) {w : Fin 9 × Fin 49 × Nat} (hw : w ∈ fieldWrites) :
    (scatterVq vq).get w.2.1 = (vq.get w.1).testBit w.2.2 := by
  have hsource (p : Fin 49) :
      (Vector.ofFn fun p => (vq.get (writerOf p).1).testBit (writerOf p).2.2).get p =
        (vq.get (writerOf p).1).testBit (writerOf p).2.2 := by
    show (Vector.ofFn _)[p.val] = _
    rw [Vector.getElem_ofFn]
  have hget := get_foldl_setAt (.ofFn fun p => (vq.get (writerOf p).1).testBit (writerOf p).2.2) (fun w => w.2.1)
    (fun w => (vq.get w.1).testBit w.2.2) (fun u hu => by rw [hsource, writerOf_write u hu])
    (.replicate 49 false) (.inl (List.mem_map_of_mem hw))
  rw [scatterVq_eq, hget, hsource, writerOf_write w hw]

/-! ## Gathering -/

/-- The shifts of a field go through all of its bits. -/
theorem fieldShifts : ∀ j : Fin 9, ∀ k < (fieldsDmr3600x2450.get j).bits,
    k ∈ (fieldsDmr3600x2450.get j).ambeD.zipIdx.map fun p => (fieldsDmr3600x2450.get j).bits - 1 - p.2 := by
  decide

theorem vqSize_eq : ∀ j : Fin 9, (fieldsDmr3600x2450.get j).vqSize = 2 ^ (fieldsDmr3600x2450.get j).bits := by
  decide

theorem mem_fieldWrites (j : Fin 9) {p : Fin 49 × Nat} (hp : p ∈ (fieldsDmr3600x2450.get j).ambeD.zipIdx) :
    (j, p.1, (fieldsDmr3600x2450.get j).bits - 1 - p.2) ∈ fieldWrites := by
  unfold fieldWrites
  rw [List.mem_flatMap]
  exact ⟨j, List.mem_finRange j, List.mem_map.mpr ⟨p, hp, rfl⟩⟩

theorem gatherField_scatterVq (vq : VqIndices) (j : Fin 9) (h : vq.get j < (fieldsDmr3600x2450.get j).vqSize) :
    gatherField (fieldsDmr3600x2450.get j) (scatterVq vq) = vq.get j := by
  have hshifts := fieldShifts j
  have hmem (p : Fin 49 × Nat) (hp : p ∈ (fieldsDmr3600x2450.get j).ambeD.zipIdx) :=
    scatterVq_get vq (mem_fieldWrites j hp)
  rw [vqSize_eq] at h
  unfold gatherField
  generalize fieldsDmr3600x2450.get j = field at hshifts hmem h ⊢
  have hbits : field.ambeD.zipIdx.foldl (fun v p => v ||| ((scatterVq vq).get p.1).toNat <<< (field.bits - 1 - p.2)) 0 =
      (field.ambeD.zipIdx.map fun p => field.bits - 1 - p.2).foldl
        (fun v s => v ||| ((vq.get j).testBit s).toNat <<< s) 0 := by
    rw [List.foldl_map]
    apply List.foldl_ext
    intro v p hp
    rw [hmem p hp]
  rw [hbits]
  apply Nat.eq_of_testBit_eq
  intro k
  rw [testBit_foldl_or, Nat.zero_testBit, Bool.false_or]
  by_cases hk : k < field.bits
  · rw [decide_eq_true (hshifts k hk), Bool.true_and]
  · have hhigh : (vq.get j).testBit k = false :=
      Nat.testBit_lt_two_pow (Nat.lt_of_lt_of_le h (Nat.pow_le_pow_right (by decide) (by omega)))
    rw [hhigh, Bool.and_false]

theorem frameToVq_encodeVqFrame (vq : VqIndices) (h : ∀ j, vq.get j < (fieldsDmr3600x2450.get j).vqSize) :
    frameToVq (encodeVqFrame vq) = vq := by
  unfold frameToVq encodeVqFrame
  rw [toSourceBits_encodeFromAmbeD, unpack_pack]
  ext1 j hj
  simp only [Vector.getElem_ofFn]
  exact gatherField_scatterVq vq ⟨j, hj⟩ (h ⟨j, hj⟩)

theorem ambe_channel_coding :
    (∀ ambeD, toSourceBits (encodeFromAmbeD ambeD) = packMsbFirst ambeD ∧ WellFormed (encodeFromAmbeD ambeD)) ∧
      (∀ raw : Bytes 7, WellFormed (channelEncode raw) ∧
        (raw.getD 6 0 &&& 0x7F = 0 → channelDecode (channelEncode raw) = raw)) ∧
      (∀ data < 2 ^ 12, CyclicCode.Codeword golay2312Gen (golay2312Encode data) ∧
        countOnes (golay2412Encode data) % 2 = 0) ∧
      ∀ vq : VqIndices, (∀ j, vq.get j < (fieldsDmr3600x2450.get j).vqSize) → frameToVq (encodeVqFrame vq) = vq := by
  refine ⟨?_, ?_, ?_, frameToVq_encodeVqFrame⟩
  · intro ambeD
    exact ⟨toSourceBits_encodeFromAmbeD ambeD, wellFormed_channelEncode _⟩
  · intro raw
    refine ⟨wellFormed_channelEncode raw, ?_⟩
    rw [bytes_getD raw 6 (by decide)]
    exact channelDecode_channelEncode
  · intro data h
    exact ⟨golay2312_codeword h, golay2412_even h⟩

theorem ambe_channel_coding_sample :
    channelDecode (channelEncode #v[0x12, 0x34, 0x56, 0x78, 0x9A, 0xBC, 0x80]) =
      #v[0x12, 0x34, 0x56, 0x78, 0x9A, 0xBC, 0x80] ∧
      frameToVq (encodeVqFrame #v[124, 31, 0, 511, 5, 6, 7, 8, 3]) = #v[124, 31, 0, 511, 5, 6, 7, 8, 3] := by
  obtain ⟨-, hraw, -, hvq⟩ := ambe_channel_coding
  exact ⟨(hraw _).2 (by decide), hvq _ (by decide)⟩

end DmrBridge
