import DmrBridge.Fec

/-!
# Embedded LC, talker alias and EMB sections

A 72-bit LC in 128 bits: seven rows under Hamming(16,11), one row of column parity, read out
column by column into four fragments for bursts B to E of a superframe.
-/

namespace DmrBridge

/-! ## Embedded LC -/

/-- The four fragments of one LC, for bursts B, C, D and E. -/
abbrev Fragments := Vector (Bytes 4) 4

def lcssFirst : UInt8 := 1
def lcssContinuation : UInt8 := 3
def lcssLast : UInt8 := 2
def lcssNull : UInt8 := 0

def crc5Embedded (lcBytes : Bytes 9) : UInt8 :=
  UInt8.ofNat (lcBytes.foldl (fun total b => total + b.toNat) 0 % 31)

/-- The 11 data bits of row `r`: LC bits, and from row 2 on one CRC bit at the end. -/
def embeddedRow (lcBits : Bits 72) (crc : UInt8) (r : Fin 7) : Bits 11 :=
  .ofFn fun c =>
    if h : r.val < 2 then lcBits[r.val * 11 + c.val]
    else if h' : c.val < 10 then lcBits[22 + (r.val - 2) * 10 + c.val]
    else crc.toNat.testBit (4 - (r.val - 2))

def embeddedMatrix (lcBits : Bits 72) : Bits 128 :=
  let crc := crc5Embedded (.ofFn fun i => packMsb fun bit => lcBits.getD (i.val * 8 + bit) false)
  let row (r : Fin 7) : Bits 16 := embeddedRow lcBits crc r ++ hamming1611Parity (embeddedRow lcBits crc r)
  .ofFn fun p =>
    if h : p.val < 112 then (row ⟨p.val / 16, by omega⟩)[p.val % 16]
    else (List.finRange 7).foldl (fun acc r => acc ^^ (row r)[p.val % 16]) false

/-- Step 16, and back by 127 past the end. -/
def columnOrder : Nat → Nat
  | 0 => 0
  | k + 1 => if columnOrder k + 16 > 127 then columnOrder k + 16 - 127 else columnOrder k + 16

def encodeRaw (lcBits : Bits 72) : Bits 128 :=
  let mat := embeddedMatrix lcBits
  .ofFn fun i => mat.getD (columnOrder i.val) false

def buildFragments (lcBits : Bits 72) : Fragments :=
  let raw := encodeRaw lcBits
  .ofFn fun n => .ofFn fun byteIdx =>
    packMsb fun bit => raw.getD (n.val * 32 + byteIdx.val * 8 + bit) false

def lcssForFragment : Nat → UInt8
  | 0 => lcssFirst
  | 1 | 2 => lcssContinuation
  | 3 => lcssLast
  | _ => lcssNull

/-! ## Talker alias -/

/-- 7-bit characters, first on top, moved to the top of a field of `fieldBits`. -/
def packCharsMsbFirst (chars : List UInt8) (fieldBits : Nat) : UInt64 :=
  let data : UInt64 := chars.foldl (fun data ch => data <<< 7 ||| (ch &&& 0x7F).toUInt64) 0
  data <<< UInt64.ofNat (fieldBits - 7 * chars.length)

def encodeHeaderBytes (total : UInt8) (head : List UInt8) : Bytes 9 :=
  let data := packCharsMsbFirst head 49
  let taDataBit0 := ((data >>> 48) &&& 1).toUInt8
  let lower48 := data &&& 0x0000FFFFFFFFFFFF
  let head : Bytes 3 := #v[0x04, 0x00, (total <<< 1) ||| taDataBit0]
  let taData : Bytes 6 := .ofFn fun i => ((lower48 >>> UInt64.ofNat (40 - i.val * 8)) &&& 0xFF).toUInt8
  head ++ taData

def encodeBlockBytes (flco : UInt8) (chunk : List UInt8) : Bytes 9 :=
  let data := packCharsMsbFirst chunk 56
  let head : Bytes 2 := #v[flco, 0x00]
  let taData : Bytes 7 := .ofFn fun i => ((data >>> UInt64.ofNat (48 - i.val * 8)) &&& 0xFF).toUInt8
  head ++ taData

def maxAliasChars : Nat := 31

/-- `chunks(8)` of the at most 24 bytes after the header. -/
def aliasChunks (tail : List UInt8) : List (List UInt8) :=
  [tail.take 8, (tail.drop 8).take 8, (tail.drop 16).take 8].filter (· ≠ [])

def encodeTalkerAliasLcs (text : List UInt8) : List (Bits 72) :=
  if text.isEmpty || text.length > maxAliasChars || !text.all (· < 128) then []
  else
    let head := text.take 7
    bytesToBits (encodeHeaderBytes (UInt8.ofNat text.length) head) ::
      List.zipWith (fun flco chunk => bytesToBits (encodeBlockBytes flco chunk)) [0x05, 0x06, 0x07]
        (aliasChunks (text.drop head.length))

/-! ## The centre of a burst -/

def bsVoiceSync : Bytes 6 := #v[0x75, 0x5F, 0xD7, 0xDF, 0x75, 0xF7]
def bsDataSync : Bytes 6 := #v[0xDF, 0xF5, 0x7D, 0x75, 0xDF, 0x5D]

def buildEmbSection (colorCode lcss : UInt8) (embeddedLc : Bytes 4) : Bytes 6 :=
  let codeword := qr167Encode (((colorCode &&& 0x0F) <<< 3) ||| (lcss &&& 0x03))
  #v[(codeword >>> 8).toUInt8, embeddedLc[0], embeddedLc[1], embeddedLc[2], embeddedLc[3],
    (codeword &&& 0xFF).toUInt8]

def buildNullEmb (colorCode : UInt8) : Bytes 6 := buildEmbSection colorCode 0 #v[0, 0, 0, 0]

end DmrBridge
