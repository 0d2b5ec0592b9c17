import DmrBridge.EmbeddedLcDecode
import DmrBridge.HammingErrors
import DmrBridge.Lib.Blocks

/-!
# Embedded LC with one or two wrong bits

Two wrong bits in one row are detected; in two rows each is corrected. The CRC has nothing to do
with it, and the row of column parity is not read.
-/

open BinaryCode

namespace DmrBridge

/-! ## Columns -/

/-- The place in the stream of a position of the matrix. -/
def serialIndex (p : Nat) : Nat := if p = 127 then 127 else p * 8 % 127

theorem serialIndex_lt (p : Nat) : serialIndex p < 128 := by
  unfold serialIndex
  split <;> omega

theorem serialIndex_columnOrder (i : Nat) (h : i < 128) : serialIndex (columnOrder i) = i := by
  rw [columnOrder_eq i h]
  unfold serialIndex
  split
  · split <;> omega
  · rw [if_neg (by omega)]
    omega

theorem deserialize_at (raw : Bits 128) (p : Nat) (hp : p < 128) :
    (deserialize raw)[p] = raw.getD (serialIndex p) false := by
  obtain ⟨i, hi⟩ := columnOrder_surj p hp
  have hsource := foldl_setIfInBounds (.ofFn fun p : Fin 128 => raw.getD (serialIndex p.val) false)
    (fun i : Fin 128 => columnOrder i.val) (fun i => raw[i]) (List.finRange 128) ?_ (.replicate 128 false) p hp
  · unfold deserialize
    rw [hsource, if_pos ⟨i, List.mem_finRange i, hi⟩, Vector.getElem_ofFn]
  · intro i _
    have hlt := columnOrder_lt i.val i.isLt
    rw [Vector.getElem?_eq_getElem hlt, Vector.getElem_ofFn, serialIndex_columnOrder _ i.isLt, bits_getD _ _ i.isLt]
    rfl

theorem deserialize_add (a b : Bits 128) : deserialize (add a b) = add (deserialize a) (deserialize b) := by
  ext1 p hp
  have hlt := serialIndex_lt p
  rw [getElem_add, deserialize_at _ p hp, deserialize_at _ p hp, deserialize_at _ p hp, bits_getD _ _ hlt,
    bits_getD _ _ hlt, bits_getD _ _ hlt, getElem_add]

theorem deserialize_single (i : Nat) (h : i < 128) : deserialize (single i) = single (columnOrder i) := by
  ext1 p hp
  rw [deserialize_at _ p hp, bits_getD _ _ (serialIndex_lt p), getElem_single, getElem_single, decide_eq_decide]
  constructor
  · intro hsame
    obtain ⟨k, hk⟩ := columnOrder_surj p hp
    rw [← hk, serialIndex_columnOrder _ k.isLt] at hsame
    rw [← hk, hsame]
  · intro hsame
    rw [hsame, serialIndex_columnOrder i h]

theorem columnOrder_bijective :
    Function.Bijective fun i : Fin 128 => (⟨columnOrder i.val, columnOrder_lt i.val i.isLt⟩ : Fin 128) := by
  constructor
  · intro i j h
    have hval : columnOrder i.val = columnOrder j.val := congrArg Fin.val h
    have hserial := congrArg serialIndex hval
    rw [serialIndex_columnOrder _ i.isLt, serialIndex_columnOrder _ j.isLt] at hserial
    exact Fin.ext hserial
  · intro p
    obtain ⟨i, hi⟩ := columnOrder_surj p.val p.isLt
    exact ⟨i, Fin.ext hi⟩

/-! ## Rows as blocks -/

theorem setMatrixRow_at (mat : Bits 128) (r : Fin 7) (row : Bits 16) (p : Nat) (hp : p < 128) :
    (setMatrixRow mat r row)[p] = if p / 16 = r.val then row.getD (p % 16) false else mat[p] := by
  simp only [setMatrixRow, Vector.getElem_ofFn]
  split
  · rw [bits_getD _ _ (Nat.mod_lt _ (by decide))]
    rfl
  · rfl

theorem matrixRow_setMatrixRow (mat : Bits 128) (r : Fin 7) (row : Bits 16) :
    matrixRow (setMatrixRow mat r row) r = row := by
  ext1 c hc
  have hmod : (r.val * 16 + c) % 16 = c := by omega
  rw [matrixRow_at _ r c hc, setMatrixRow_at, if_pos (by omega), hmod, bits_getD _ _ hc]

theorem matrixRow_setMatrixRow_ne (mat : Bits 128) (r : Fin 7) (row : Bits 16) (r' : Fin 7) (h : r' ≠ r) :
    matrixRow (setMatrixRow mat r row) r' = matrixRow mat r' := by
  have hne : r'.val ≠ r.val := fun h' => h (Fin.ext h')
  ext1 c hc
  rw [matrixRow_at _ r' c hc, setMatrixRow_at, if_neg (by omega), matrixRow_at _ r' c hc]

def matrixBlocks : Blocks (Bits 128) (Fin 7) (Bits 16) (Bits 16) where
  read := matrixRow
  write := setMatrixRow
  value row := row
  read_write := matrixRow_setMatrixRow
  read_write_ne := matrixRow_setMatrixRow_ne

def decodeMatrixRow (row : Bits 16) : Except DecodeError (Bits 16) :=
  match hamming1611Correct row with
  | .error _ => .error .hamming
  | .ok row => .ok row

theorem correctMatrixRow_eq (mat : Bits 128) (r : Fin 7) :
    correctMatrixRow mat r = matrixBlocks.step decodeMatrixRow mat r := by
  unfold correctMatrixRow Blocks.step decodeMatrixRow matrixBlocks
  simp only
  generalize hamming1611Correct (matrixRow mat r) = result
  cases result <;> rfl

/-! ## The decoder -/

theorem codewordRow_valid (lcBits : Bits 72) (r : Fin 7) : Valid1611 (codewordRow lcBits r) :=
  valid_append (k := 11) (m := 5) hamming1611Parity _

theorem matrixRow_add (a b : Bits 128) (r : Fin 7) : matrixRow (add a b) r = add (matrixRow a r) (matrixRow b r) := by
  ext1 c hc
  rw [matrixRow_at _ r c hc, getElem_add, getElem_add, matrixRow_at _ r c hc, matrixRow_at _ r c hc]

theorem matrixRow_received (lcBits : Bits 72) (errors : Bits 128) (r : Fin 7) :
    matrixRow (deserialize (add (encodeRaw lcBits) errors)) r =
      add (codewordRow lcBits r) (matrixRow (deserialize errors) r) := by
  rw [deserialize_add, deserialize_encodeRaw, matrixRow_add, matrixRow_embeddedMatrix]

/-- The seven rows hold all that is read after the correction. -/
theorem eq_of_matrixRow {a b : Bits 128} (h : ∀ r, matrixRow a r = matrixRow b r) (p : Nat) (hp : p < 112) :
    a[p] = b[p] := by
  have hrow := congrArg (fun row => row.getD (p % 16) false) (h ⟨p / 16, by omega⟩)
  simp only [bits_getD _ _ (Nat.mod_lt p (by decide : 16 > 0)), matrixRow_at] at hrow
  have hidx : p / 16 * 16 + p % 16 = p := by omega
  simpa only [hidx] using hrow

theorem decodeRaw_of_rows {raw : Bits 128} {lcBits : Bits 72} {mat : Bits 128}
    (hfold : (List.finRange 7).foldlM correctMatrixRow (deserialize raw) = .ok mat)
    (hrows : ∀ r, matrixRow mat r = codewordRow lcBits r) : decodeRaw raw = .ok (packBytes lcBits) := by
  have hsame (p : Nat) (hp : p < 112) : mat[p] = (embeddedMatrix lcBits)[p] :=
    eq_of_matrixRow (fun r => (hrows r).trans (matrixRow_embeddedMatrix lcBits r).symm) p hp
  have hbits : matrixLcBits mat = lcBits := by
    rw [← matrixLcBits_embeddedMatrix lcBits]
    ext1 i hi
    simp only [matrixLcBits, Vector.getElem_ofFn]
    split
    · exact hsame i (by omega)
    split
    · exact hsame _ (by omega)
    · exact hsame _ (by omega)
  have hcrc : matrixCrc mat = crc5Embedded (packBytes lcBits) := by
    rw [← matrixCrc_embeddedMatrix lcBits]
    unfold matrixCrc
    rw [hsame 42 (by decide), hsame 58 (by decide), hsame 74 (by decide), hsame 90 (by decide), hsame 106 (by decide)]
  unfold decodeRaw
  rw [hfold]
  simp [bind, Except.bind, hbits, hcrc, pure, Except.pure]

theorem decodeMatrixRow_add {c e : Bits 16} (hc : Valid1611 c) (he : AtMostOne e) :
    decodeMatrixRow (add c e) = .ok c := by
  unfold decodeMatrixRow
  rw [hamming1611Correct_add hc he]

/-- One wrong bit at most in each of the seven rows. -/
theorem decodeRaw_of_atMostOne (lcBits : Bits 72) {errors : Bits 128}
    (hone : ∀ r, AtMostOne (matrixRow (deserialize errors) r)) :
    decodeRaw (add (encodeRaw lcBits) errors) = .ok (packBytes lcBits) := by
  have hnodup := List.nodup_finRange 7
  have hpass := matrixBlocks.foldlM_step (M := Except DecodeError) decodeMatrixRow hnodup
    (s := deserialize (add (encodeRaw lcBits) errors)) (codewordRow lcBits) fun r _ => by
      show decodeMatrixRow (matrixRow (deserialize (add (encodeRaw lcBits) errors)) r) = .ok (codewordRow lcBits r)
      rw [matrixRow_received, decodeMatrixRow_add (codewordRow_valid lcBits r) (hone r)]
  rw [← funext₂ correctMatrixRow_eq] at hpass
  apply decodeRaw_of_rows hpass
  intro r
  exact matrixBlocks.read_writeAll_of_mem _ hnodup (List.mem_finRange r) _

theorem decodeRaw_of_double (lcBits : Bits 72) {errors : Bits 128} {r : Fin 7} {p q : Nat} (hp : p < 16) (hq : q < 16)
    (hpq : p ≠ q) (hrow : matrixRow (deserialize errors) r = add (single p) (single q))
    (hone : ∀ r', r' ≠ r → AtMostOne (matrixRow (deserialize errors) r')) :
    decodeRaw (add (encodeRaw lcBits) errors) = .error .hamming := by
  have hpass := matrixBlocks.foldlM_step_error decodeMatrixRow (List.nodup_finRange 7)
    (s := deserialize (add (encodeRaw lcBits) errors)) (List.mem_finRange r) (e := .hamming) (by
      show decodeMatrixRow (matrixRow (deserialize (add (encodeRaw lcBits) errors)) r) = .error .hamming
      unfold decodeMatrixRow
      rw [matrixRow_received, hrow, hamming1611Correct_double (codewordRow_valid lcBits r) hp hq hpq])
    fun r' _ hne => by
      refine ⟨codewordRow lcBits r', ?_⟩
      show decodeMatrixRow (matrixRow (deserialize (add (encodeRaw lcBits) errors)) r') = .ok (codewordRow lcBits r')
      rw [matrixRow_received, decodeMatrixRow_add (codewordRow_valid lcBits r') (hone r' hne)]
  rw [← funext₂ correctMatrixRow_eq] at hpass
  unfold decodeRaw
  rw [hpass]
  rfl

/-! ## One and two wrong bits -/

theorem matrixRow_pair {p q : Nat} {r : Fin 7} {i : Fin 16}
    (h : (matrixRow (add (single p) (single q)) r).get i = true) :
    (r.val * 16 + i.val = p ∨ r.val * 16 + i.val = q) ∧ p ≠ q := by
  have hbit : (matrixRow (add (single p) (single q)) r)[i.val] = true := h
  rw [matrixRow_at _ r _ i.isLt, getElem_add, getElem_single, getElem_single] at hbit
  by_cases hp : r.val * 16 + i.val = p <;> by_cases hq : r.val * 16 + i.val = q
  · simp [hp] at hbit
    omega
  · exact ⟨.inl hp, by omega⟩
  · exact ⟨.inr hq, by omega⟩
  · simp [hp, hq] at hbit

/-- Two wrong bits of the matrix: in one of the seven rows they are detected, elsewhere corrected. -/
theorem decodeRaw_pair (lcBits : Bits 72) {errors : Bits 128} {p q : Nat}
    (h : deserialize errors = add (single p) (single q)) :
    decodeRaw (add (encodeRaw lcBits) errors) =
      if p ≠ q ∧ p / 16 = q / 16 ∧ p / 16 < 7 then .error .hamming else .ok (packBytes lcBits) := by
  split
  · rename_i hrow
    obtain ⟨hpq, hsame, h7⟩ := hrow
    refine decodeRaw_of_double lcBits (r := ⟨p / 16, h7⟩) (p := p % 16) (q := q % 16) (by omega) (by omega)
      (by omega) ?_ ?_
    · rw [h]
      ext1 c hc
      rw [matrixRow_at _ _ c hc, getElem_add, getElem_add, getElem_single, getElem_single, getElem_single,
        getElem_single]
      congr 1
      · rw [decide_eq_decide]
        dsimp only
        omega
      · rw [decide_eq_decide]
        dsimp only
        omega
    · intro r hne i _ hi
      rw [h] at hi
      have hr : r.val ≠ p / 16 := fun hr => hne (Fin.ext hr)
      obtain ⟨hplace, -⟩ := matrixRow_pair hi
      omega
  · rename_i hrows
    apply decodeRaw_of_atMostOne
    intro r i j hi hj
    rw [h] at hi hj
    obtain ⟨hplaceI, hpq⟩ := matrixRow_pair hi
    obtain ⟨hplaceJ, -⟩ := matrixRow_pair hj
    apply Fin.ext
    by_contra hij
    exact hrows ⟨hpq, by omega, by omega⟩

theorem flipBit_pair (lcBits : Bits 72) (p q : Fin 128) :
    decodeRaw (flipBit (flipBit (encodeRaw lcBits) p) q) =
      if columnOrder p ≠ columnOrder q ∧ columnOrder p / 16 = columnOrder q / 16 ∧ columnOrder p / 16 < 7 then
        .error .hamming else .ok (packBytes lcBits) := by
  have hassoc : flipBit (flipBit (encodeRaw lcBits) p) q = add (encodeRaw lcBits) (add (single p) (single q)) := by
    rw [flipBit_eq_add, flipBit_eq_add]
    ext1 i hi
    simp only [getElem_add, Bool.xor_assoc]
  rw [hassoc]
  apply decodeRaw_pair
  rw [deserialize_add, deserialize_single _ p.isLt, deserialize_single _ q.isLt]

theorem decodeRaw_flipBit (lcBits : Bits 72) (p : Fin 128) :
    decodeRaw (flipBit (encodeRaw lcBits) p) = .ok (packBytes lcBits) := by
  rw [flipBit_eq_add]
  apply decodeRaw_of_atMostOne
  intro r i j hi hj
  have hi' : (matrixRow (deserialize (single p.val)) r)[i.val] = true := hi
  have hj' : (matrixRow (deserialize (single p.val)) r)[j.val] = true := hj
  rw [matrixRow_at _ r _ i.isLt, deserialize_single _ p.isLt, getElem_single, decide_eq_true_eq] at hi'
  rw [matrixRow_at _ r _ j.isLt, deserialize_single _ p.isLt, getElem_single, decide_eq_true_eq] at hj'
  apply Fin.ext
  omega

theorem bytesToBits_packBytes (lcBits : Bits 72) : bytesToBits (packBytes lcBits) = lcBits := by
  ext1 i hi
  have hidx : i / 8 * 8 + i % 8 = i := by omega
  simp only [bytesToBits, packBytes, Vector.getElem_ofFn]
  rw [msbBit_packMsb _ _ (by omega), hidx, bits_getD _ _ hi]

theorem embedded_lc_code (lcBits : Bits 72) :
    bytesToBits (packBytes lcBits) = lcBits ∧
      decodeRaw (encodeRaw lcBits) = .ok (packBytes lcBits) ∧
      (∀ p : Fin 128, decodeRaw (flipBit (encodeRaw lcBits) p) = .ok (packBytes lcBits)) ∧
      (∀ p q : Fin 128, decodeRaw (flipBit (flipBit (encodeRaw lcBits) p) q) = .ok (packBytes lcBits) ∨
        decodeRaw (flipBit (flipBit (encodeRaw lcBits) p) q) = .error .hamming) ∧
      Function.Bijective (fun i : Fin 128 => (⟨columnOrder i.val, columnOrder_lt i.val i.isLt⟩ : Fin 128)) ∧
      ∀ bytes, crc5Embedded bytes < 32 := by
  refine ⟨bytesToBits_packBytes lcBits, decodeRaw_encodeRaw lcBits, decodeRaw_flipBit lcBits, ?_,
    columnOrder_bijective, crc5Embedded_lt⟩
  intro p q
  rw [flipBit_pair]
  split
  · exact .inr rfl
  · exact .inl rfl

end DmrBridge
