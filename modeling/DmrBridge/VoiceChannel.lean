import DmrBridge.Fec
import DmrBridge.Lib.Blocks
import DmrBridge.Lib.MsbBits

/-!
# AMBE channel coding

49 codec bits in a frame of 72: Golay(24,12) on row 0, Golay(23,12) whitened by row 0 on row 1, two
rows as they are, and an interleave of 36 dibits.
-/

open MsbBits

namespace DmrBridge.VoiceChannel

/-- The rows of the source matrix, 24 columns each; the last columns of rows 1 to 3 are unused. -/
abbrev SourceMatrix := Vector (Bits 24) 4

-- For the numerals of rows and positions below.
scoped instance neZeroRows : NeZero 4 := ⟨by decide⟩
scoped instance neZeroBits : NeZero 49 := ⟨by decide⟩

def mbelibToChip : Vector (Fin 49) 49 := #v[
  0, 3, 6, 9, 12, 15, 18, 21, 24, 27, 30, 33, 36, 39, 41, 43, 45, 47, 1, 4, 7, 10, 13, 16, 19,
  22, 25, 28, 31, 34, 37, 40, 42, 44, 46, 48, 2, 5, 8, 11, 14, 17, 20, 23, 26, 29, 32, 35, 38]

/-- `RW` and `RX`: the row and column of the MSB of each dibit. -/
def msbCell : Vector (Fin 4 × Fin 24) 36 := #v[
  (0, 23), (1, 10), (0, 22), (1, 9), (0, 21), (1, 8), (0, 20), (1, 7), (0, 19), (1, 6), (0, 18), (1, 5),
  (0, 17), (1, 4), (0, 16), (1, 3), (0, 15), (1, 2), (0, 14), (1, 1), (0, 13), (1, 0), (0, 12), (2, 10),
  (0, 11), (2, 9), (0, 10), (2, 8), (0, 9), (2, 7), (0, 8), (2, 6), (0, 7), (2, 5), (0, 6), (2, 4)]

/-- `RY` and `RZ`: the row and column of the LSB. -/
def lsbCell : Vector (Fin 4 × Fin 24) 36 := #v[
  (0, 5), (2, 3), (0, 4), (2, 2), (0, 3), (2, 1), (0, 2), (2, 0), (0, 1), (3, 13), (0, 0), (3, 12),
  (1, 22), (3, 11), (1, 21), (3, 10), (1, 20), (3, 9), (1, 19), (3, 8), (1, 18), (3, 7), (1, 17), (3, 6),
  (1, 16), (3, 5), (1, 15), (3, 4), (1, 14), (3, 3), (1, 13), (3, 2), (1, 12), (3, 1), (1, 11), (3, 0)]

/-- The cell of bit `j` of the frame: dibit `j / 2`, its MSB first. -/
def cellOf (j : Fin 72) : Fin 4 × Fin 24 :=
  if j.val % 2 = 0 then msbCell.get ⟨j.val / 2, by omega⟩ else lsbCell.get ⟨j.val / 2, by omega⟩

/-! ## Golay codes and whitening -/

def golay2312Gen : Nat := 0xC75

/-- Data in bits 22 to 11, parity in bits 10 to 0. -/
def golay2312Encode (data : Nat) : Nat :=
  let remainder := [22, 21, 20, 19, 18, 17, 16, 15, 14, 13, 12, 11].foldl
    (fun r i => if r.testBit i then r ^^^ golay2312Gen <<< (i - 11) else r) (data <<< 11)
  data <<< 11 ||| remainder &&& 0x7FF

/-- `u32::count_ones` -/
def countOnes (w : Nat) : Nat := (List.range 32).countP w.testBit

def golay2412Encode (data : Nat) : Nat :=
  let cw23 := golay2312Encode data
  cw23 <<< 1 ||| countOnes cw23 &&& 1

def pnNext (pr : Nat) : Nat := (173 * pr + 13849) % 0x10000

def pnBits : Nat → Nat → List Bool
  | 0, _ => []
  | n + 1, pr => (pnNext pr).testBit 15 :: pnBits n (pnNext pr)

def pnSequence (seed n : Nat) : List Bool := pnBits n (seed * 16)

/-! ## The matrix -/

def getCell (fr : SourceMatrix) (cell : Fin 4 × Fin 24) : Bool := (fr.get cell.1).get cell.2

def setCell (fr : SourceMatrix) (cell : Fin 4 × Fin 24) (bit : Bool) : SourceMatrix :=
  setAt fr cell.1 (setAt (fr.get cell.1) cell.2 bit)

def deinterleave (coded : Bytes 9) : SourceMatrix :=
  (List.finRange 72).foldl (fun fr j => setCell fr (cellOf j) ((bytesToBits coded).get j))
    (.replicate 4 (.replicate 24 false))

def interleave (fr : SourceMatrix) : Bytes 9 :=
  .ofFn fun k => packMsb fun bit =>
    if h : bit < 8 then getCell fr (cellOf ⟨k.val * 8 + bit, by omega⟩) else false

/-- `v = (v << 1) | bit` over the bits. -/
def readMsbFirst (bits : List Bool) : Nat := bits.foldl (fun v bit => v <<< 1 ||| bit.toNat) 0

/-- Columns 23 to 12 of row 0. -/
def row0Seed (fr : SourceMatrix) : Nat :=
  readMsbFirst (List.ofFn fun i : Fin 12 => getCell fr (0, ⟨23 - i.val, by omega⟩))

/-! ## Packing -/

def packMsbFirst (bits : Bits 49) : Bytes 7 := .ofFn fun k => packMsb fun bit => bits.getD (k.val * 8 + bit) false

def unpackMsbFirst (packed : Bytes 7) : Bits 49 := .ofFn fun i => msbBit packed[i.val / 8] (i.val % 8)

def toChip (bits : Bits 49) : Bits 49 :=
  (List.finRange 49).foldl (fun chip i => setAt chip (mbelibToChip.get i) (bits.get i)) (.replicate 49 false)

def fromChip (chip : Bits 49) : Bits 49 := .ofFn fun i => chip.get (mbelibToChip.get i)

def permuteMbelibToChip (packed : Bytes 7) : Bytes 7 := packMsbFirst (toChip (unpackMsbFirst packed))

def permuteChipToMbelib (packed : Bytes 7) : Bytes 7 := packMsbFirst (fromChip (unpackMsbFirst packed))

/-! ## The codec -/

/-- The systematic positions, row 1 without its whitening. No error is corrected. -/
def sourceBits (fr : SourceMatrix) : Bits 49 :=
  let pr := pnSequence (row0Seed fr) 12
  .ofFn fun i =>
    if i.val < 12 then getCell fr (0, ⟨23 - i.val, by omega⟩)
    else if i.val < 24 then getCell fr (1, ⟨22 - (i.val - 12), by omega⟩) ^^ pr.getD (i.val - 12) false
    else if i.val < 35 then getCell fr (2, ⟨10 - (i.val - 24), by omega⟩)
    else getCell fr (3, ⟨13 - (i.val - 35), by omega⟩)

def channelDecode (coded : Bytes 9) : Bytes 7 := packMsbFirst (toChip (sourceBits (deinterleave coded)))

def toSourceBits (coded : Bytes 9) : Bytes 7 := permuteChipToMbelib (channelDecode coded)

/-- The whole codeword of row 1 is whitened, its parity too. -/
def codedMatrix (bits : Bits 49) : SourceMatrix :=
  let row0Data := readMsbFirst (bits.toList.take 12)
  let cw0 := golay2412Encode row0Data
  let pr := pnSequence row0Data 23
  let cw1 := golay2312Encode (readMsbFirst ((bits.toList.drop 12).take 12))
  #v[.ofFn fun col => cw0.testBit col.val,
    .ofFn fun col => if col.val < 23 then cw1.testBit col.val ^^ pr.getD (22 - col.val) false else false,
    .ofFn fun col => if col.val ≤ 10 then bits.getD (24 + (10 - col.val)) false else false,
    .ofFn fun col => if col.val ≤ 13 then bits.getD (35 + (13 - col.val)) false else false]

def channelEncode (raw : Bytes 7) : Bytes 9 := interleave (codedMatrix (fromChip (unpackMsbFirst raw)))

def encodeFromAmbeD (ambeD : Bits 49) : Bytes 9 := channelEncode (permuteMbelibToChip (packMsbFirst ambeD))

end DmrBridge.VoiceChannel
