import DmrBridge.Fec

/-!
# Reed-Solomon RS(12,9) over GF(256)

Nine LC bytes and three parity bytes, masked by the data type of the burst.
-/

namespace DmrBridge

set_option maxRecDepth 4000 in
def expTable : Vector UInt8 512 := #v[
  0x01, 0x02, 0x04, 0x08, 0x10, 0x20, 0x40, 0x80, 0x1D, 0x3A, 0x74, 0xE8, 0xCD, 0x87, 0x13, 0x26,
  0x4C, 0x98, 0x2D, 0x5A, 0xB4, 0x75, 0xEA, 0xC9, 0x8F, 0x03, 0x06, 0x0C, 0x18, 0x30, 0x60, 0xC0,
  0x9D, 0x27, 0x4E, 0x9C, 0x25, 0x4A, 0x94, 0x35, 0x6A, 0xD4, 0xB5, 0x77, 0xEE, 0xC1, 0x9F, 0x23,
  0x46, 0x8C, 0x05, 0x0A, 0x14, 0x28, 0x50, 0xA0, 0x5D, 0xBA, 0x69, 0xD2, 0xB9, 0x6F, 0xDE, 0xA1,
  0x5F, 0xBE, 0x61, 0xC2, 0x99, 0x2F, 0x5E, 0xBC, 0x65, 0xCA, 0x89, 0x0F, 0x1E, 0x3C, 0x78, 0xF0,
  0xFD, 0xE7, 0xD3, 0xBB, 0x6B, 0xD6, 0xB1, 0x7F, 0xFE, 0xE1, 0xDF, 0xA3, 0x5B, 0xB6, 0x71, 0xE2,
  0xD9, 0xAF, 0x43, 0x86, 0x11, 0x22, 0x44, 0x88, 0x0D, 0x1A, 0x34, 0x68, 0xD0, 0xBD, 0x67, 0xCE,
  0x81, 0x1F, 0x3E, 0x7C, 0xF8, 0xED, 0xC7, 0x93, 0x3B, 0x76, 0xEC, 0xC5, 0x97, 0x33, 0x66, 0xCC,
  0x85, 0x17, 0x2E, 0x5C, 0xB8, 0x6D, 0xDA, 0xA9, 0x4F, 0x9E, 0x21, 0x42, 0x84, 0x15, 0x2A, 0x54,
  0xA8, 0x4D, 0x9A, 0x29, 0x52, 0xA4, 0x55, 0xAA, 0x49, 0x92, 0x39, 0x72, 0xE4, 0xD5, 0xB7, 0x73,
  0xE6, 0xD1, 0xBF, 0x63, 0xC6, 0x91, 0x3F, 0x7E, 0xFC, 0xE5, 0xD7, 0xB3, 0x7B, 0xF6, 0xF1, 0xFF,
  0xE3, 0xDB, 0xAB, 0x4B, 0x96, 0x31, 0x62, 0xC4, 0x95, 0x37, 0x6E, 0xDC, 0xA5, 0x57, 0xAE, 0x41,
  0x82, 0x19, 0x32, 0x64, 0xC8, 0x8D, 0x07, 0x0E, 0x1C, 0x38, 0x70, 0xE0, 0xDD, 0xA7, 0x53, 0xA6,
  0x51, 0xA2, 0x59, 0xB2, 0x79, 0xF2, 0xF9, 0xEF, 0xC3, 0x9B, 0x2B, 0x56, 0xAC, 0x45, 0x8A, 0x09,
  0x12, 0x24, 0x48, 0x90, 0x3D, 0x7A, 0xF4, 0xF5, 0xF7, 0xF3, 0xFB, 0xEB, 0xCB, 0x8B, 0x0B, 0x16,
  0x2C, 0x58, 0xB0, 0x7D, 0xFA, 0xE9, 0xCF, 0x83, 0x1B, 0x36, 0x6C, 0xD8, 0xAD, 0x47, 0x8E, 0x01,
  0x02, 0x04, 0x08, 0x10, 0x20, 0x40, 0x80, 0x1D, 0x3A, 0x74, 0xE8, 0xCD, 0x87, 0x13, 0x26, 0x4C,
  0x98, 0x2D, 0x5A, 0xB4, 0x75, 0xEA, 0xC9, 0x8F, 0x03, 0x06, 0x0C, 0x18, 0x30, 0x60, 0xC0, 0x9D,
  0x27, 0x4E, 0x9C, 0x25, 0x4A, 0x94, 0x35, 0x6A, 0xD4, 0xB5, 0x77, 0xEE, 0xC1, 0x9F, 0x23, 0x46,
  0x8C, 0x05, 0x0A, 0x14, 0x28, 0x50, 0xA0, 0x5D, 0xBA, 0x69, 0xD2, 0xB9, 0x6F, 0xDE, 0xA1, 0x5F,
  0xBE, 0x61, 0xC2, 0x99, 0x2F, 0x5E, 0xBC, 0x65, 0xCA, 0x89, 0x0F, 0x1E, 0x3C, 0x78, 0xF0, 0xFD,
  0xE7, 0xD3, 0xBB, 0x6B, 0xD6, 0xB1, 0x7F, 0xFE, 0xE1, 0xDF, 0xA3, 0x5B, 0xB6, 0x71, 0xE2, 0xD9,
  0xAF, 0x43, 0x86, 0x11, 0x22, 0x44, 0x88, 0x0D, 0x1A, 0x34, 0x68, 0xD0, 0xBD, 0x67, 0xCE, 0x81,
  0x1F, 0x3E, 0x7C, 0xF8, 0xED, 0xC7, 0x93, 0x3B, 0x76, 0xEC, 0xC5, 0x97, 0x33, 0x66, 0xCC, 0x85,
  0x17, 0x2E, 0x5C, 0xB8, 0x6D, 0xDA, 0xA9, 0x4F, 0x9E, 0x21, 0x42, 0x84, 0x15, 0x2A, 0x54, 0xA8,
  0x4D, 0x9A, 0x29, 0x52, 0xA4, 0x55, 0xAA, 0x49, 0x92, 0x39, 0x72, 0xE4, 0xD5, 0xB7, 0x73, 0xE6,
  0xD1, 0xBF, 0x63, 0xC6, 0x91, 0x3F, 0x7E, 0xFC, 0xE5, 0xD7, 0xB3, 0x7B, 0xF6, 0xF1, 0xFF, 0xE3,
  0xDB, 0xAB, 0x4B, 0x96, 0x31, 0x62, 0xC4, 0x95, 0x37, 0x6E, 0xDC, 0xA5, 0x57, 0xAE, 0x41, 0x82,
  0x19, 0x32, 0x64, 0xC8, 0x8D, 0x07, 0x0E, 0x1C, 0x38, 0x70, 0xE0, 0xDD, 0xA7, 0x53, 0xA6, 0x51,
  0xA2, 0x59, 0xB2, 0x79, 0xF2, 0xF9, 0xEF, 0xC3, 0x9B, 0x2B, 0x56, 0xAC, 0x45, 0x8A, 0x09, 0x12,
  0x24, 0x48, 0x90, 0x3D, 0x7A, 0xF4, 0xF5, 0xF7, 0xF3, 0xFB, 0xEB, 0xCB, 0x8B, 0x0B, 0x16, 0x2C,
  0x58, 0xB0, 0x7D, 0xFA, 0xE9, 0xCF, 0x83, 0x1B, 0x36, 0x6C, 0xD8, 0xAD, 0x47, 0x8E, 0x01, 0x00]

set_option maxRecDepth 4000 in
def logTable : Vector UInt8 256 := #v[
  0x00, 0x00, 0x01, 0x19, 0x02, 0x32, 0x1A, 0xC6, 0x03, 0xDF, 0x33, 0xEE, 0x1B, 0x68, 0xC7, 0x4B,
  0x04, 0x64, 0xE0, 0x0E, 0x34, 0x8D, 0xEF, 0x81, 0x1C, 0xC1, 0x69, 0xF8, 0xC8, 0x08, 0x4C, 0x71,
  0x05, 0x8A, 0x65, 0x2F, 0xE1, 0x24, 0x0F, 0x21, 0x35, 0x93, 0x8E, 0xDA, 0xF0, 0x12, 0x82, 0x45,
  0x1D, 0xB5, 0xC2, 0x7D, 0x6A, 0x27, 0xF9, 0xB9, 0xC9, 0x9A, 0x09, 0x78, 0x4D, 0xE4, 0x72, 0xA6,
  0x06, 0xBF, 0x8B, 0x62, 0x66, 0xDD, 0x30, 0xFD, 0xE2, 0x98, 0x25, 0xB3, 0x10, 0x91, 0x22, 0x88,
  0x36, 0xD0, 0x94, 0xCE, 0x8F, 0x96, 0xDB, 0xBD, 0xF1, 0xD2, 0x13, 0x5C, 0x83, 0x38, 0x46, 0x40,
  0x1E, 0x42, 0xB6, 0xA3, 0xC3, 0x48, 0x7E, 0x6E, 0x6B, 0x3A, 0x28, 0x54, 0xFA, 0x85, 0xBA, 0x3D,
  0xCA, 0x5E, 0x9B, 0x9F, 0x0A, 0x15, 0x79, 0x2B, 0x4E, 0xD4, 0xE5, 0xAC, 0x73, 0xF3, 0xA7, 0x57,
  0x07, 0x70, 0xC0, 0xF7, 0x8C, 0x80, 0x63, 0x0D, 0x67, 0x4A, 0xDE, 0xED, 0x31, 0xC5, 0xFE, 0x18,
  0xE3, 0xA5, 0x99, 0x77, 0x26, 0xB8, 0xB4, 0x7C, 0x11, 0x44, 0x92, 0xD9, 0x23, 0x20, 0x89, 0x2E,
  0x37, 0x3F, 0xD1, 0x5B, 0x95, 0xBC, 0xCF, 0xCD, 0x90, 0x87, 0x97, 0xB2, 0xDC, 0xFC, 0xBE, 0x61,
  0xF2, 0x56, 0xD3, 0xAB, 0x14, 0x2A, 0x5D, 0x9E, 0x84, 0x3C, 0x39, 0x53, 0x47, 0x6D, 0x41, 0xA2,
  0x1F, 0x2D, 0x43, 0xD8, 0xB7, 0x7B, 0xA4, 0x76, 0xC4, 0x17, 0x49, 0xEC, 0x7F, 0x0C, 0x6F, 0xF6,
  0x6C, 0xA1, 0x3B, 0x52, 0x29, 0x9D, 0x55, 0xAA, 0xFB, 0x60, 0x86, 0xB1, 0xBB, 0xCC, 0x3E, 0x5A,
  0xCB, 0x59, 0x5F, 0xB0, 0x9C, 0xA9, 0xA0, 0x51, 0x0B, 0xF5, 0x16, 0xEB, 0x7A, 0x75, 0x2C, 0xD7,
  0x4F, 0xAE, 0xD5, 0xE9, 0xE6, 0xE7, 0xAD, 0xE8, 0x74, 0xD6, 0xF4, 0xEA, 0xA8, 0x50, 0x58, 0xAF]

def logOf (a : UInt8) : Nat := (logTable.get ⟨a.toNat, index_u8 a⟩).toNat

theorem logOf_lt (a : UInt8) : logOf a < 256 := index_u8 _

/-- Multiplication through the log table; the sum of two logs is at most 510. -/
def gmult (a b : UInt8) : UInt8 :=
  if a = 0 ∨ b = 0 then 0
  else expTable.get ⟨logOf a + logOf b, by have := logOf_lt a; have := logOf_lt b; omega⟩

/-- `POLY`, the first `NPAR` coefficients: no other is read. -/
def poly : Vector UInt8 3 := #v[64, 56, 14]

def rsStep (parity : Bytes 3) (byte : UInt8) : Bytes 3 :=
  let dbyte := byte ^^^ parity[2]
  #v[gmult poly[0] dbyte, parity[0] ^^^ gmult poly[1] dbyte, parity[1] ^^^ gmult poly[2] dbyte]

def rs129Encode (data : Bytes 9) : Bytes 3 := data.toList.foldl rsStep #v[0, 0, 0]

def lcHeaderMask : Bytes 3 := #v[0x96, 0x96, 0x96]
def lcTerminatorMask : Bytes 3 := #v[0x99, 0x99, 0x99]

/-- Bytes 9, 10 and 11 of the LC payload: the parity reversed, under the mask. -/
def rs129Fec (data : Bytes 9) (mask : Bytes 3) : Bytes 3 :=
  let parity := rs129Encode data
  #v[parity[2] ^^^ mask[0], parity[1] ^^^ mask[1], parity[0] ^^^ mask[2]]

/-- `EXP_TABLE[log_a + 255 - log_b]`; the code asserts that `b` is not 0. -/
def gdiv (a b : UInt8) : UInt8 :=
  if a = 0 then 0
  else expTable.get ⟨logOf a + 255 - logOf b, by have := logOf_lt a; omega⟩

/-! ## Decoding -/

/-- `S_i = c(alpha^i)` for `i = 1, 2, 3`, the first byte of the word the leading coefficient. -/
def rs129Syndromes (codeword : Bytes 12) : Bytes 3 :=
  .ofFn fun i => codeword.toList.foldl (fun acc c => gmult acc (expTable.get ⟨i.val + 1, by omega⟩) ^^^ c) 0

/-- `codeword[CODEWORD_LEN - 1 - p] ^= e`: the byte of degree `p`. -/
def xorDegree (codeword : Bytes 12) (p : Nat) (e : UInt8) : Bytes 12 :=
  codeword.set (11 - p) (codeword[11 - p] ^^^ e)

/-- The word afterwards, and whether it is a codeword. -/
def rs129Correct (codeword : Bytes 12) : Bytes 12 × Bool :=
  let syndromes := rs129Syndromes codeword
  let s1 := syndromes[0]
  let s2 := syndromes[1]
  let s3 := syndromes[2]
  if s1 = 0 ∧ s2 = 0 ∧ s3 = 0 then (codeword, true)
  else if s1 = 0 ∨ s2 = 0 then (codeword, false)
  else if gmult s1 s3 ≠ gmult s2 s2 then (codeword, false)
  else
    let alphaP := gdiv s2 s1
    let p := logOf alphaP
    if p ≥ 12 then (codeword, false)
    else (xorDegree codeword p (gdiv s1 alphaP), true)

def IsCodeword (word : Bytes 12) : Prop := rs129Syndromes word = #v[0, 0, 0]

/-! ## Panics -/

/-! The functions once more, with `none` for an index out of range and for a division by zero. -/

def gmult? (a b : UInt8) : Option UInt8 :=
  if a = 0 ∨ b = 0 then some 0
  else do
    let logA ← logTable[a.toNat]?
    let logB ← logTable[b.toNat]?
    expTable[logA.toNat + logB.toNat]?

def gdiv? (a b : UInt8) : Option UInt8 :=
  if a = 0 then some 0
  else if b = 0 then none
  else do
    let logA ← logTable[a.toNat]?
    let logB ← logTable[b.toNat]?
    if logA.toNat + 255 < logB.toNat then none else expTable[logA.toNat + 255 - logB.toNat]?

def rsStep? (parity : Bytes 3) (byte : UInt8) : Option (Bytes 3) := do
  let dbyte := byte ^^^ parity[2]
  let p0 ← gmult? poly[0] dbyte
  let p1 ← gmult? poly[1] dbyte
  let p2 ← gmult? poly[2] dbyte
  return #v[p0, parity[0] ^^^ p1, parity[1] ^^^ p2]

def rs129Encode? (data : Bytes 9) : Option (Bytes 3) := data.toList.foldlM rsStep? #v[0, 0, 0]

def syndrome? (codeword : Bytes 12) (i : Nat) : Option UInt8 := do
  let x ← expTable[i + 1]?
  codeword.toList.foldlM (fun acc c => (gmult? acc x).map (· ^^^ c)) 0

def xorDegree? (codeword : Bytes 12) (p : Nat) (e : UInt8) : Option (Bytes 12) :=
  if p > 11 then none
  else do
    let byte ← codeword[11 - p]?
    return codeword.setIfInBounds (11 - p) (byte ^^^ e)

def rs129Correct? (codeword : Bytes 12) : Option (Bytes 12 × Bool) := do
  let s1 ← syndrome? codeword 0
  let s2 ← syndrome? codeword 1
  let s3 ← syndrome? codeword 2
  if s1 = 0 ∧ s2 = 0 ∧ s3 = 0 then return (codeword, true)
  if s1 = 0 ∨ s2 = 0 then return (codeword, false)
  let product ← gmult? s1 s3
  let square ← gmult? s2 s2
  if product ≠ square then return (codeword, false)
  let alphaP ← gdiv? s2 s1
  let p ← logTable[alphaP.toNat]?
  if p.toNat ≥ 12 then return (codeword, false)
  let e ← gdiv? s1 alphaP
  let corrected ← xorDegree? codeword p.toNat e
  return (corrected, true)

/-! ## Words -/

/-- The message and its parity, the highest degree first. -/
def rs129Codeword (data : Bytes 9) : Bytes 12 :=
  let parity := rs129Encode data
  data ++ #v[parity[2], parity[1], parity[0]]

/-- The constant coefficient first. -/
def coefficients (parity : Bytes 3) : UInt8 × UInt8 × UInt8 := (parity[0], parity[1], parity[2])

end DmrBridge
