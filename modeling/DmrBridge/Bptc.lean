import DmrBridge.Rs
import DmrBridge.Dmrd

/-!
# Voice LC headers and terminators

BPTC(196,96): nine rows under Hamming(15,11), fifteen columns under Hamming(13,9), interleaved
and packed around the slot type and the sync pattern. Position 0 of the matrix is unused, so
position `p` sits in row `(p - 1) / 15` and column `(p - 1) % 15`.
-/

namespace DmrBridge

def scatter {n m : Nat} (pos : Fin n → Fin m) (src : Bits n) (base : Bits m) : Bits m :=
  (List.finRange n).foldl (fun acc i => acc.set (pos i) src[i]) base

def dataPositions : Vector (Fin 196) 96 := #v[
  4, 5, 6, 7, 8, 9, 10, 11,
  16, 17, 18, 19, 20, 21, 22, 23, 24, 25, 26, 31, 32, 33, 34, 35, 36, 37, 38, 39, 40, 41, 46, 47,
  48, 49, 50, 51, 52, 53, 54, 55, 56, 61, 62, 63, 64, 65, 66, 67, 68, 69, 70, 71, 76, 77, 78, 79,
  80, 81, 82, 83, 84, 85, 86, 91, 92, 93, 94, 95, 96, 97, 98, 99, 100, 101, 106, 107, 108, 109,
  110, 111, 112, 113, 114, 115, 116, 121, 122, 123, 124, 125, 126, 127, 128, 129, 130, 131]

def rowData (matrix : Bits 196) (r : Fin 9) : Bits 11 := .ofFn fun i => matrix[r.val * 15 + 1 + i.val]

def columnData (matrix : Bits 196) (c : Fin 15) : Bits 9 := .ofFn fun i => matrix[c.val + 1 + i.val * 15]

/-- A row's parity depends on its own data only, so the loop over the rows is one pass. -/
def addRowParity (matrix : Bits 196) : Bits 196 :=
  .ofFn fun p =>
    if h : 0 < p.val ∧ (p.val - 1) / 15 < 9 ∧ 11 ≤ (p.val - 1) % 15 then
      (hamming1511Parity (rowData matrix ⟨(p.val - 1) / 15, h.2.1⟩))[(p.val - 1) % 15 - 11]
    else matrix[p]

def addColumnParity (matrix : Bits 196) : Bits 196 :=
  .ofFn fun p =>
    if h : 9 ≤ (p.val - 1) / 15 then
      (hamming139Parity (columnData matrix ⟨(p.val - 1) % 15, by omega⟩))[(p.val - 1) / 15 - 9]
    else matrix[p]

def interleave (matrix : Bits 196) : Bits 196 :=
  scatter (fun i => ⟨i.val * 181 % 196, Nat.mod_lt _ (by decide)⟩) matrix (.replicate 196 false)

def bptcEncode (data : Bits 96) : Bits 196 :=
  let matrix := scatter (fun i => dataPositions[i]) data (.replicate 196 false)
  interleave (addColumnParity (addRowParity matrix))

/-- Eight info bits, then the parity: its low byte and the top nibble of its high byte. -/
def encodeSlotType (dataType colorCode : UInt8) : Bits 20 :=
  let info := ((colorCode &&& 0x0F) <<< 4) ||| (dataType &&& 0x0F)
  let parity := golay208Parity info
  let lo := (parity &&& 0xFF).toUInt8
  let hi := ((parity >>> 8) &&& 0xFF).toUInt8
  .ofFn fun i =>
    if i.val < 8 then msbBit info i.val
    else if i.val < 16 then msbBit lo (i.val - 8)
    else msbBit hi (i.val - 16)

set_option maxRecDepth 2000 in
/-- Info (98), slot type (10), sync (48), slot type (10), info (98). -/
def dataBurstBits (interleaved : Bits 196) (slotType : Bits 20) (sync : Bytes 6) : Bits 264 :=
  .ofFn fun i =>
    if _ : i.val < 98 then interleaved[i.val]
    else if _ : i.val < 108 then slotType[i.val - 98]
    else if h : i.val < 156 then
      msbBit (sync.get ⟨(i.val - 108) / 8, by omega⟩) ((i.val - 108) % 8)
    else if _ : i.val < 166 then slotType[i.val - 146]
    else interleaved[i.val - 68]

def buildDataBurst (lcBits : Bits 96) (dataType colorCode : UInt8) (sync : Bytes 6) : Bytes 33 :=
  let burstBits := dataBurstBits (bptcEncode lcBits) (encodeSlotType dataType colorCode) sync
  .ofFn fun i => packMsb fun bit => burstBits.getD (i.val * 8 + bit) false

/-! ## Link control -/

/-- Nine LC body bytes; `none` is the panic of `id_to_24_be`. -/
def lcBodyBytes (groupCall : Bool) (dstId srcId : UInt32) : Option (Bytes 9) := do
  let dst ← idTo24Be dstId
  let src ← idTo24Be srcId
  let flco : UInt8 := if groupCall then 0x00 else 0x03
  return .ofFn fun i => ([flco, 0, 0] ++ dst ++ src).getD i.val 0

def buildVoiceLcBody (groupCall : Bool) (dstId srcId : UInt32) : Option (Bits 72) := do
  let bytes ← lcBodyBytes groupCall dstId srcId
  return bytesToBits bytes

def buildVoiceLc (groupCall : Bool) (dstId srcId : UInt32) (dataType : UInt8) : Option (Bits 96) := do
  let body ← lcBodyBytes groupCall dstId srcId
  let mask := if dataType = 2 then lcTerminatorMask else lcHeaderMask
  let payload : Bytes 12 := body ++ rs129Fec body mask
  return .ofFn fun i => msbBit payload[i.val / 8] (i.val % 8)

theorem idTo24Be_isSome (id : UInt32) (h : id ≤ max24Bit) : (idTo24Be id).isSome := by
  simp [idTo24Be, h]

theorem lcBodyBytes_isSome (groupCall : Bool) (dstId srcId : UInt32) (hd : dstId ≤ max24Bit)
    (hs : srcId ≤ max24Bit) : (lcBodyBytes groupCall dstId srcId).isSome := by
  obtain ⟨dst, hdst⟩ := Option.isSome_iff_exists.mp (idTo24Be_isSome dstId hd)
  obtain ⟨src, hsrc⟩ := Option.isSome_iff_exists.mp (idTo24Be_isSome srcId hs)
  simp [lcBodyBytes, hdst, hsrc]

theorem buildVoiceLcBody_isSome (groupCall : Bool) (dstId srcId : UInt32) (hd : dstId ≤ max24Bit)
    (hs : srcId ≤ max24Bit) : (buildVoiceLcBody groupCall dstId srcId).isSome := by
  obtain ⟨bytes, h⟩ := Option.isSome_iff_exists.mp (lcBodyBytes_isSome groupCall dstId srcId hd hs)
  simp [buildVoiceLcBody, h]

theorem buildVoiceLc_isSome (groupCall : Bool) (dstId srcId : UInt32) (dataType : UInt8)
    (hd : dstId ≤ max24Bit) (hs : srcId ≤ max24Bit) :
    (buildVoiceLc groupCall dstId srcId dataType).isSome := by
  obtain ⟨body, h⟩ := Option.isSome_iff_exists.mp (lcBodyBytes_isSome groupCall dstId srcId hd hs)
  simp [buildVoiceLc, h]

/-! ## Decoding -/

def deinterleave (interleaved : Bits 196) : Bits 196 :=
  .ofFn fun i => interleaved[i.val * 181 % 196]

def rowWord (matrix : Bits 196) (r : Fin 9) : Bits 15 := .ofFn fun i => matrix[r.val * 15 + 1 + i.val]

def setRow (matrix : Bits 196) (r : Fin 9) (row : Bits 15) : Bits 196 :=
  .ofFn fun p =>
    if h : r.val * 15 + 1 ≤ p.val ∧ p.val < r.val * 15 + 16 then row[p.val - (r.val * 15 + 1)] else matrix[p]

def columnWord (matrix : Bits 196) (c : Fin 15) : Bits 13 := .ofFn fun i => matrix[c.val + 1 + i.val * 15]

def setColumn (matrix : Bits 196) (c : Fin 15) (col : Bits 13) : Bits 196 :=
  .ofFn fun p => if 0 < p.val ∧ (p.val - 1) % 15 = c.val then col[(p.val - 1) / 15] else matrix[p]

def correctRow (s : Bits 196 × UInt8) (r : Fin 9) : Bits 196 × UInt8 :=
  let (row, corrected) := hamming1511Correct (rowWord s.1 r)
  (setRow s.1 r row, if corrected then s.2 + 1 else s.2)

def correctColumn (s : Bits 196 × UInt8) (c : Fin 15) : Option (Bits 196 × UInt8) :=
  match hamming139Correct (columnWord s.1 c) with
  | .error _ => none
  | .ok (col, corrected) => some (setColumn s.1 c col, if corrected then s.2 + 1 else s.2)

def extractData (matrix : Bits 196) : Bits 96 := .ofFn fun i => matrix[dataPositions[i]]

/-- Rows, then columns. The count of corrected bits comes with the data. -/
def bptcDecodeCorrect (interleaved : Bits 196) : Option (Bits 96 × UInt8) := do
  let rows := (List.finRange 9).foldl correctRow (deinterleave interleaved, 0)
  let (matrix, corrected) ← (List.finRange 15).foldlM correctColumn rows
  return (extractData matrix, corrected)

/-! ## Permutations -/

theorem scatter_fold_get {n m : Nat} (pos : Fin n → Fin m) (src : Bits n) (l : List (Fin n)) (base : Bits m)
    (q : Fin m) (hq : ∀ i ∈ l, pos i ≠ q) : (l.foldl (fun acc i => acc.set (pos i) src[i]) base)[q] = base[q] := by
  induction l generalizing base with
  | nil => rfl
  | cons i l ih =>
    rw [List.foldl_cons, ih _ fun j hj => hq j (List.mem_cons_of_mem i hj)]
    have hne : (pos i).val ≠ q.val := fun h => hq i List.mem_cons_self (Fin.ext h)
    exact Vector.getElem_set_ne _ _ hne

theorem scatter_get {n m : Nat} (pos : Fin n → Fin m) (hinj : Function.Injective pos) (src : Bits n) (base : Bits m)
    (i : Fin n) : (scatter pos src base)[pos i] = src[i] := by
  obtain ⟨before, after, hsplit⟩ := List.append_of_mem (List.mem_finRange i)
  have hnodup := List.nodup_finRange n
  rw [hsplit, List.nodup_append] at hnodup
  have hafter : ∀ j ∈ after, pos j ≠ pos i := by
    intro j hj hpos
    have hji := hinj hpos
    subst hji
    exact (List.nodup_cons.mp hnodup.2.1).1 hj
  rw [scatter, hsplit, List.foldl_append, List.foldl_cons, scatter_fold_get pos src after _ (pos i) hafter]
  exact Vector.getElem_set_self _

theorem dataPositions_at (i : Fin 96) :
    (dataPositions[i]).val = if i.val < 8 then i.val + 4 else 16 + (i.val - 8) / 11 * 15 + (i.val - 8) % 11 := by
  revert i
  decide +kernel

theorem dataPositions_injective : Function.Injective fun i : Fin 96 => dataPositions[i] := by
  intro i j h
  have hval : (dataPositions[i]).val = (dataPositions[j]).val := congrArg Fin.val h
  rw [dataPositions_at, dataPositions_at] at hval
  apply Fin.ext
  split at hval <;> split at hval <;> omega

/-- `bptc_encode` before the interleaving. -/
def encodedMatrix (data : Bits 96) : Bits 196 :=
  addColumnParity (addRowParity (scatter (fun i => dataPositions[i]) data (.replicate 196 false)))

end DmrBridge
