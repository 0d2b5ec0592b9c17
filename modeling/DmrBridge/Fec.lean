import DmrBridge.Types

/-!
# Block codes

Golay(20,8) for the slot type, Hamming(15,11) and (13,9) for BPTC(196,96), Hamming(16,11) for
embedded LC, QR(16,7,6) for EMB. The code keeps one bit in a `u8`; here it is a `Bool`.
-/

namespace DmrBridge

abbrev Bits (n : Nat) := Vector Bool n

/-- `(byte >> (7 - bit)) & 1` -/
def msbBit (byte : UInt8) (bit : Nat) : Bool := byte.toNat.testBit (7 - bit)

def bytesToBits (bytes : Bytes 9) : Bits 72 := .ofFn fun i => msbBit bytes[i.val / 8] (i.val % 8)

/-- The byte whose bits are `bits 0`, …, `bits 7`, first bit on top. -/
def packMsb (bits : Nat → Bool) : UInt8 :=
  (List.range 8).foldl (fun v bit => v ||| (bits bit).toUInt8 <<< UInt8.ofNat (7 - bit)) 0

theorem vector_getD {α : Type} {n : Nat} (v : Vector α n) (i : Nat) (x : α) (h : i < n) : v.getD i x = v[i] := by
  rw [Vector.getD, Array.getD_eq_getD_getElem?, Array.getElem?_eq_getElem (by simpa using h)]
  rfl

theorem bits_getD {n : Nat} (bits : Bits n) (i : Nat) (h : i < n) :
    bits.getD i false = bits[i] := vector_getD bits i false h

theorem bytes_getD {n : Nat} (bytes : Bytes n) (i : Nat) (h : i < n) :
    bytes.getD i 0 = bytes[i] := vector_getD bytes i 0 h

theorem msbBit_packMsb (bits : Nat → Bool) (bit : Nat) (h : bit < 8) : msbBit (packMsb bits) bit = bits bit := by
  have hall : ∀ b0 b1 b2 b3 b4 b5 b6 b7 : Bool, ∀ i : Fin 8,
      msbBit (packMsb fun k => [b0, b1, b2, b3, b4, b5, b6, b7].getD k false) i.val =
        [b0, b1, b2, b3, b4, b5, b6, b7].getD i.val false := by decide +kernel
  have hbits := hall (bits 0) (bits 1) (bits 2) (bits 3) (bits 4) (bits 5) (bits 6) (bits 7) ⟨bit, h⟩
  rcases (by omega : bit = 0 ∨ bit = 1 ∨ bit = 2 ∨ bit = 3 ∨ bit = 4 ∨ bit = 5 ∨ bit = 6 ∨ bit = 7)
    with rfl | rfl | rfl | rfl | rfl | rfl | rfl | rfl <;> exact hbits

theorem packMsb_congr {f g : Nat → Bool} (h : ∀ bit < 8, f bit = g bit) : packMsb f = packMsb g := by
  have hrange : List.range 8 = [0, 1, 2, 3, 4, 5, 6, 7] := rfl
  simp only [packMsb, hrange, List.foldl_cons, List.foldl_nil, h 0 (by decide), h 1 (by decide), h 2 (by decide),
    h 3 (by decide), h 4 (by decide), h 5 (by decide), h 6 (by decide), h 7 (by decide)]

theorem packMsb_msbBit (byte : UInt8) : packMsb (msbBit byte) = byte := by
  have hall : ∀ n : Fin 256, packMsb (msbBit (UInt8.ofNat n)) = UInt8.ofNat n := by decide +kernel
  simpa using hall ⟨byte.toNat, byte.toNat_lt⟩

/-! ## Hamming codes -/

def hamming1511Parity (d : Bits 11) : Bits 4 :=
  #v[d[0] ^^ d[1] ^^ d[2] ^^ d[3] ^^ d[5] ^^ d[7] ^^ d[8],
    d[1] ^^ d[2] ^^ d[3] ^^ d[4] ^^ d[6] ^^ d[8] ^^ d[9],
    d[2] ^^ d[3] ^^ d[4] ^^ d[5] ^^ d[7] ^^ d[9] ^^ d[10],
    d[0] ^^ d[1] ^^ d[2] ^^ d[4] ^^ d[6] ^^ d[7] ^^ d[10]]

def hamming139Parity (d : Bits 9) : Bits 4 :=
  #v[d[0] ^^ d[1] ^^ d[3] ^^ d[5] ^^ d[6],
    d[0] ^^ d[1] ^^ d[2] ^^ d[4] ^^ d[6] ^^ d[7],
    d[0] ^^ d[1] ^^ d[2] ^^ d[3] ^^ d[5] ^^ d[7] ^^ d[8],
    d[0] ^^ d[2] ^^ d[4] ^^ d[5] ^^ d[8]]

def hamming1611Parity (d : Bits 11) : Bits 5 :=
  #v[d[0] ^^ d[1] ^^ d[2] ^^ d[3] ^^ d[5] ^^ d[7] ^^ d[8],
    d[1] ^^ d[2] ^^ d[3] ^^ d[4] ^^ d[6] ^^ d[8] ^^ d[9],
    d[2] ^^ d[3] ^^ d[4] ^^ d[5] ^^ d[7] ^^ d[9] ^^ d[10],
    d[0] ^^ d[1] ^^ d[2] ^^ d[4] ^^ d[6] ^^ d[7] ^^ d[10],
    d[0] ^^ d[2] ^^ d[5] ^^ d[6] ^^ d[8] ^^ d[9] ^^ d[10]]

/-! ## Single-bit correction -/

/-- The mismatches of the parity as a number, the first bit lowest. -/
def syndromeIndex (received expected : List Bool) : Nat :=
  (List.zipWith (· ^^ ·) received expected).foldr (fun bit s => bit.toNat + 2 * s) 0

def flipBit {n : Nat} (cw : Bits n) (pos : Nat) : Bits n := .ofFn fun i => if i.val = pos then !cw.get i else cw.get i

/-- `usize::MAX`: no position. -/
def noPosition : Nat := 0xFFFFFFFFFFFFFFFF

def syndromeToPos1511 : List Nat := [noPosition, 11, 12, 8, 13, 5, 9, 3, 14, 0, 6, 1, 10, 7, 4, 2]

/-- -1 for no error, and for the two syndromes of no single bit. -/
def syndromeToPos139 : List Int := [-1, 9, 10, 6, 11, 3, 7, 1, 12, -1, 4, -1, 8, 5, 2, 0]

structure HammingError where
  deriving DecidableEq

/-- Whether a bit was flipped comes with the word. Several wrong bits are corrected to a wrong word. -/
def hamming1511Correct (cw : Bits 15) : Bits 15 × Bool :=
  let expected := hamming1511Parity (.ofFn fun i => cw[i.val])
  let s := syndromeIndex (cw.toList.drop 11) expected.toList
  if s = 0 then (cw, false) else (flipBit cw (syndromeToPos1511.getD s noPosition), true)

def hamming139Correct (cw : Bits 13) : Except HammingError (Bits 13 × Bool) :=
  let expected := hamming139Parity (.ofFn fun i => cw[i.val])
  let s := syndromeIndex (cw.toList.drop 9) expected.toList
  if s = 0 then .ok (cw, false)
  else
    let pos := syndromeToPos139.getD s (-1)
    if pos < 0 then .error {} else .ok (flipBit cw pos.toNat, true)

/-- -1 for no error, and for the syndromes of two wrong bits. -/
def syndromeToPos1611 : List Int :=
  [-1, 11, 12, -1, 13, -1, -1, 3, 14, -1, -1, 1, -1, 7, 4, -1, 15, -1, -1, 8, -1, 5, 9, -1, -1, 0, 6, -1, 10, -1, -1, 2]

def hamming1611Correct (cw : Bits 16) : Except HammingError (Bits 16) :=
  let expected := hamming1611Parity (.ofFn fun i => cw[i.val])
  let s := syndromeIndex (cw.toList.drop 11) expected.toList
  if s = 0 then .ok cw
  else
    let pos := syndromeToPos1611.getD s (-1)
    if pos < 0 then .error {} else .ok (flipBit cw pos.toNat)

theorem syndromeIndex_self (bits : List Bool) : syndromeIndex bits bits = 0 := by
  unfold syndromeIndex
  induction bits with
  | nil => rfl
  | cons b bits ih =>
    rw [List.zipWith_cons_cons, List.foldr_cons, ih]
    simp

/-! ## Table codes -/

set_option maxRecDepth 2000 in
def golay2087Table : Vector UInt16 256 := #v[
  0x0000, 0xB08E, 0xE093, 0x501D, 0x70A9, 0xC027, 0x903A, 0x20B4,
  0x60DC, 0xD052, 0x804F, 0x30C1, 0x1075, 0xA0FB, 0xF0E6, 0x4068,
  0x7036, 0xC0B8, 0x90A5, 0x202B, 0x009F, 0xB011, 0xE00C, 0x5082,
  0x10EA, 0xA064, 0xF079, 0x40F7, 0x6043, 0xD0CD, 0x80D0, 0x305E,
  0xD06C, 0x60E2, 0x30FF, 0x8071, 0xA0C5, 0x104B, 0x4056, 0xF0D8,
  0xB0B0, 0x003E, 0x5023, 0xE0AD, 0xC019, 0x7097, 0x208A, 0x9004,
  0xA05A, 0x10D4, 0x40C9, 0xF047, 0xD0F3, 0x607D, 0x3060, 0x80EE,
  0xC086, 0x7008, 0x2015, 0x909B, 0xB02F, 0x00A1, 0x50BC, 0xE032,
  0x90D9, 0x2057, 0x704A, 0xC0C4, 0xE070, 0x50FE, 0x00E3, 0xB06D,
  0xF005, 0x408B, 0x1096, 0xA018, 0x80AC, 0x3022, 0x603F, 0xD0B1,
  0xE0EF, 0x5061, 0x007C, 0xB0F2, 0x9046, 0x20C8, 0x70D5, 0xC05B,
  0x8033, 0x30BD, 0x60A0, 0xD02E, 0xF09A, 0x4014, 0x1009, 0xA087,
  0x40B5, 0xF03B, 0xA026, 0x10A8, 0x301C, 0x8092, 0xD08F, 0x6001,
  0x2069, 0x90E7, 0xC0FA, 0x7074, 0x50C0, 0xE04E, 0xB053, 0x00DD,
  0x3083, 0x800D, 0xD010, 0x609E, 0x402A, 0xF0A4, 0xA0B9, 0x1037,
  0x505F, 0xE0D1, 0xB0CC, 0x0042, 0x20F6, 0x9078, 0xC065, 0x70EB,
  0xA03D, 0x10B3, 0x40AE, 0xF020, 0xD094, 0x601A, 0x3007, 0x8089,
  0xC0E1, 0x706F, 0x2072, 0x90FC, 0xB048, 0x00C6, 0x50DB, 0xE055,
  0xD00B, 0x6085, 0x3098, 0x8016, 0xA0A2, 0x102C, 0x4031, 0xF0BF,
  0xB0D7, 0x0059, 0x5044, 0xE0CA, 0xC07E, 0x70F0, 0x20ED, 0x9063,
  0x7051, 0xC0DF, 0x90C2, 0x204C, 0x00F8, 0xB076, 0xE06B, 0x50E5,
  0x108D, 0xA003, 0xF01E, 0x4090, 0x6024, 0xD0AA, 0x80B7, 0x3039,
  0x0067, 0xB0E9, 0xE0F4, 0x507A, 0x70CE, 0xC040, 0x905D, 0x20D3,
  0x60BB, 0xD035, 0x8028, 0x30A6, 0x1012, 0xA09C, 0xF081, 0x400F,
  0x30E4, 0x806A, 0xD077, 0x60F9, 0x404D, 0xF0C3, 0xA0DE, 0x1050,
  0x5038, 0xE0B6, 0xB0AB, 0x0025, 0x2091, 0x901F, 0xC002, 0x708C,
  0x40D2, 0xF05C, 0xA041, 0x10CF, 0x307B, 0x80F5, 0xD0E8, 0x6066,
  0x200E, 0x9080, 0xC09D, 0x7013, 0x50A7, 0xE029, 0xB034, 0x00BA,
  0xE088, 0x5006, 0x001B, 0xB095, 0x9021, 0x20AF, 0x70B2, 0xC03C,
  0x8054, 0x30DA, 0x60C7, 0xD049, 0xF0FD, 0x4073, 0x106E, 0xA0E0,
  0x90BE, 0x2030, 0x702D, 0xC0A3, 0xE017, 0x5099, 0x0084, 0xB00A,
  0xF062, 0x40EC, 0x10F1, 0xA07F, 0x80CB, 0x3045, 0x6058, 0xD0D6]

theorem index_u8 (b : UInt8) : b.toNat < 256 := b.toNat_lt

def golay208Parity (data : UInt8) : UInt16 := golay2087Table.get ⟨data.toNat, index_u8 data⟩

set_option maxRecDepth 2000 in
def qr1676Table : Vector UInt16 128 := #v[
  0x0000, 0x0273, 0x04E5, 0x0696, 0x09C9, 0x0BBA, 0x0D2C, 0x0F5F,
  0x11E2, 0x1391, 0x1507, 0x1774, 0x182B, 0x1A58, 0x1CCE, 0x1EBD,
  0x21B7, 0x23C4, 0x2552, 0x2721, 0x287E, 0x2A0D, 0x2C9B, 0x2EE8,
  0x3055, 0x3226, 0x34B0, 0x36C3, 0x399C, 0x3BEF, 0x3D79, 0x3F0A,
  0x417B, 0x4308, 0x459E, 0x47ED, 0x48B2, 0x4AC1, 0x4C57, 0x4E24,
  0x5099, 0x52EA, 0x547C, 0x560F, 0x5950, 0x5B23, 0x5DB5, 0x5FC6,
  0x60CC, 0x62BF, 0x6429, 0x665A, 0x6905, 0x6B76, 0x6DE0, 0x6F93,
  0x712E, 0x735D, 0x75CB, 0x77B8, 0x78E7, 0x7A94, 0x7C02, 0x7E71,
  0x82F6, 0x8085, 0x8613, 0x8460, 0x8B3F, 0x894C, 0x8FDA, 0x8DA9,
  0x9314, 0x9167, 0x97F1, 0x9582, 0x9ADD, 0x98AE, 0x9E38, 0x9C4B,
  0xA341, 0xA132, 0xA7A4, 0xA5D7, 0xAA88, 0xA8FB, 0xAE6D, 0xAC1E,
  0xB2A3, 0xB0D0, 0xB646, 0xB435, 0xBB6A, 0xB919, 0xBF8F, 0xBDFC,
  0xC38D, 0xC1FE, 0xC768, 0xC51B, 0xCA44, 0xC837, 0xCEA1, 0xCCD2,
  0xD26F, 0xD01C, 0xD68A, 0xD4F9, 0xDBA6, 0xD9D5, 0xDF43, 0xDD30,
  0xE23A, 0xE049, 0xE6DF, 0xE4AC, 0xEBF3, 0xE980, 0xEF16, 0xED65,
  0xF3D8, 0xF1AB, 0xF73D, 0xF54E, 0xFA11, 0xF862, 0xFEF4, 0xFC87]

theorem index_u7 (b : UInt8) : (b &&& 0x7F).toNat < 128 := by
  have h := Nat.and_le_right (n := b.toNat) (m := 127)
  rw [UInt8.toNat_and]
  exact Nat.lt_succ_of_le h

def qr167Encode (data : UInt8) : UInt16 :=
  qr1676Table.get ⟨(data &&& 0x7F).toNat, index_u7 data⟩

end DmrBridge
