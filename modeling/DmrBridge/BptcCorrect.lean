import DmrBridge.BptcDecode
import DmrBridge.HammingErrors
import DmrBridge.Lib.Blocks

/-!
# BPTC(196,96) on blocks with errors

The row pass leaves an error in at most one place of every column, and the column pass removes it.
-/

open BinaryCode

namespace DmrBridge

/-! ## Error patterns -/

/-- The errors in the parity rows of a column. -/
def parityErrors (matrix : Bits 196) (c : Fin 15) : Bits 4 :=
  .ofFn fun j => matrix[c.val + 1 + (9 + j.val) * 15]

/-- One error at most in each row, and one at most among the parity rows of each column. -/
def Scattered (errors : Bits 196) : Prop :=
  (∀ r, AtMostOne (rowWord errors r)) ∧ ∀ c, AtMostOne (parityErrors errors c)

/-- Every error is in row `r`, or in the unused position. -/
def Confined (errors : Bits 196) (r : Fin 13) : Prop :=
  ∀ p : Fin 196, errors.get p = true → p.val = 0 ∨ (p.val - 1) / 15 = r.val

def rowsHit (errors : Bits 196) : Nat := (List.finRange 9).countP fun r => isHit (rowWord errors r)

def columnsHit (errors : Bits 196) : Nat := (List.finRange 15).countP fun c => isHit (parityErrors errors c)

/-! ## Rows and columns as blocks -/

theorem rowWord_at (matrix : Bits 196) (r : Fin 9) (i : Nat) (hi : i < 15) :
    (rowWord matrix r)[i] = matrix[r.val * 15 + 1 + i] := by
  simp only [rowWord, Vector.getElem_ofFn]

theorem columnWord_at (matrix : Bits 196) (c : Fin 15) (i : Nat) (hi : i < 13) :
    (columnWord matrix c)[i] = matrix[c.val + 1 + i * 15] := by
  simp only [columnWord, Vector.getElem_ofFn]

theorem rowWord_setRow (matrix : Bits 196) (r : Fin 9) (row : Bits 15) : rowWord (setRow matrix r row) r = row := by
  ext1 i hi
  rw [rowWord_at _ r i hi]
  simp only [setRow, Vector.getElem_ofFn]
  rw [dif_pos (by omega)]
  exact getElem_congr_idx (by omega)

theorem rowWord_setRow_ne (matrix : Bits 196) (r : Fin 9) (row : Bits 15) (r' : Fin 9) (h : r' ≠ r) :
    rowWord (setRow matrix r row) r' = rowWord matrix r' := by
  have hne : r'.val ≠ r.val := fun h' => h (Fin.ext h')
  ext1 i hi
  rw [rowWord_at _ r' i hi, rowWord_at _ r' i hi]
  simp only [setRow, Vector.getElem_ofFn]
  rw [dif_neg (by omega)]
  rfl

theorem columnWord_setColumn (matrix : Bits 196) (c : Fin 15) (col : Bits 13) :
    columnWord (setColumn matrix c col) c = col := by
  ext1 i hi
  rw [columnWord_at _ c i hi]
  simp only [setColumn, Vector.getElem_ofFn]
  rw [if_pos (by omega)]
  exact getElem_congr_idx (by omega)

theorem columnWord_setColumn_ne (matrix : Bits 196) (c : Fin 15) (col : Bits 13) (c' : Fin 15) (h : c' ≠ c) :
    columnWord (setColumn matrix c col) c' = columnWord matrix c' := by
  have hne : c'.val ≠ c.val := fun h' => h (Fin.ext h')
  ext1 i hi
  rw [columnWord_at _ c' i hi, columnWord_at _ c' i hi]
  simp only [setColumn, Vector.getElem_ofFn]
  rw [if_neg (by omega)]
  rfl

/-- The count of corrected bits goes with the matrix. -/
def rowBlocks : Blocks (Bits 196 × UInt8) (Fin 9) (Bits 15) (Bits 15 × Bool) where
  read s r := rowWord s.1 r
  write s r result := (setRow s.1 r result.1, if result.2 then s.2 + 1 else s.2)
  value result := result.1
  read_write s r result := rowWord_setRow s.1 r result.1
  read_write_ne s r result r' h := rowWord_setRow_ne s.1 r result.1 r' h

def columnBlocks : Blocks (Bits 196 × UInt8) (Fin 15) (Bits 13) (Bits 13 × Bool) where
  read s c := columnWord s.1 c
  write s c result := (setColumn s.1 c result.1, if result.2 then s.2 + 1 else s.2)
  value result := result.1
  read_write s c result := columnWord_setColumn s.1 c result.1
  read_write_ne s c result c' h := columnWord_setColumn_ne s.1 c result.1 c' h

theorem rowBlocks_read (s : Bits 196 × UInt8) (r : Fin 9) : rowBlocks.read s r = rowWord s.1 r := rfl

theorem rowBlocks_value (result : Bits 15 × Bool) : rowBlocks.value result = result.1 := rfl

theorem columnBlocks_read (s : Bits 196 × UInt8) (c : Fin 15) : columnBlocks.read s c = columnWord s.1 c := rfl

theorem correctRow_eq (s : Bits 196 × UInt8) (r : Fin 9) :
    correctRow s r = rowBlocks.write s r (hamming1511Correct (rowBlocks.read s r)) := by
  unfold correctRow rowBlocks
  simp only

def columnResult (col : Bits 13) : Option (Bits 13 × Bool) :=
  match hamming139Correct col with
  | .error _ => none
  | .ok result => some result

theorem correctColumn_eq (s : Bits 196 × UInt8) (c : Fin 15) :
    correctColumn s c = columnBlocks.step columnResult s c := by
  unfold correctColumn Blocks.step columnResult columnBlocks
  simp only
  generalize hamming139Correct (columnWord s.1 c) = result
  cases result <;> rfl

theorem iterate_succ (k : Nat) (n : UInt8) : (· + 1)^[k] n = n + UInt8.ofNat k := by
  induction k generalizing n with
  | zero => simp
  | succ k ih =>
    rw [Function.iterate_succ_apply, ih, UInt8.add_assoc]
    congr 1
    apply UInt8.toNat_inj.mp
    simp [Nat.add_comm]

/-! ## The passes -/

/-- Every row is decoded as it was received; position 0 and the parity rows are left alone. -/
theorem rowPass {l : List (Fin 9)} (hnodup : l.Nodup) (hall : ∀ r, r ∈ l) (received : Bits 196) :
    ∃ rows, l.foldl correctRow (received, 0) = rows ∧
      (∀ r, rowWord rows.1 r = (hamming1511Correct (rowWord received r)).1) ∧
      (∀ p, (hp : p < 196) → p = 0 ∨ 136 ≤ p → rows.1[p] = received[p]) ∧
      rows.2 = UInt8.ofNat (l.countP fun r => (hamming1511Correct (rowWord received r)).2) := by
  have hpass := rowBlocks.foldl_step hamming1511Correct hnodup (received, 0)
  rw [← funext₂ correctRow_eq] at hpass
  refine ⟨_, hpass, ?_, ?_, ?_⟩
  · intro r
    rw [← rowBlocks_read, rowBlocks.read_writeAll_of_mem _ hnodup (hall r), rowBlocks_value, rowBlocks_read]
  · intro p hp houtside
    apply rowBlocks.view_writeAll fun s => s.1[p]
    intro s r result
    simp only [rowBlocks, setRow, Vector.getElem_ofFn]
    rw [dif_neg (by omega)]
    rfl
  · have hcount := rowBlocks.count_writeAll (fun s => s.2) (· + 1) (fun result => result.2) (fun _ _ _ => rfl)
      (fun r => hamming1511Correct (rowBlocks.read (received, 0) r)) l (received, 0)
    rw [hcount, iterate_succ, UInt8.zero_add]
    rfl

/-- The columns decode when each has one error at most. -/
theorem columnPass {l : List (Fin 15)} (hnodup : l.Nodup) (hall : ∀ c, c ∈ l) {matrix : Bits 196}
    {good errors : Fin 15 → Bits 13} (count : UInt8) (hgood : ∀ c, Valid139 (good c))
    (hmatrix : ∀ c, columnWord matrix c = add (good c) (errors c)) (hone : ∀ c, AtMostOne (errors c)) :
    ∃ columns, l.foldlM correctColumn (matrix, count) = some columns ∧
      (∀ c, columnWord columns.1 c = good c) ∧
      columns.2 = count + UInt8.ofNat (l.countP fun c => isHit (errors c)) := by
  have hresult (c : Fin 15) : columnResult (columnWord matrix c) = some (good c, isHit (errors c)) := by
    unfold columnResult
    rw [hmatrix c, hamming139Correct_add (hgood c) (hone c)]
  have hpass := columnBlocks.foldlM_step columnResult hnodup (s := (matrix, count)) _ fun c _ => hresult c
  rw [← funext₂ correctColumn_eq] at hpass
  refine ⟨_, hpass, ?_, ?_⟩
  · intro c
    rw [← columnBlocks_read, columnBlocks.read_writeAll_of_mem _ hnodup (hall c)]
    rfl
  · have hcount := columnBlocks.count_writeAll (fun s => s.2) (· + 1) (fun result => result.2) (fun _ _ _ => rfl)
      (fun c => (good c, isHit (errors c))) l (matrix, count)
    rw [iterate_succ] at hcount
    exact hcount

/-! ## The decoder -/

theorem deinterleave_add (a b : Bits 196) : deinterleave (add a b) = add (deinterleave a) (deinterleave b) := by
  ext1 i hi
  simp only [deinterleave, Vector.getElem_ofFn, getElem_add]

theorem rowWord_add (a b : Bits 196) (r : Fin 9) : rowWord (add a b) r = add (rowWord a r) (rowWord b r) := by
  ext1 i hi
  rw [rowWord_at _ r i hi, getElem_add, getElem_add, rowWord_at _ r i hi, rowWord_at _ r i hi]

theorem columnWord_add (a b : Bits 196) (c : Fin 15) :
    columnWord (add a b) c = add (columnWord a c) (columnWord b c) := by
  ext1 i hi
  rw [columnWord_at _ c i hi, getElem_add, getElem_add, columnWord_at _ c i hi, columnWord_at _ c i hi]

/-- Every position but 0 is in a column. -/
theorem eq_of_columnWord {a b : Bits 196} (h : ∀ c, columnWord a c = columnWord b c) (p : Nat) (hp : p < 196)
    (h0 : 0 < p) : a[p] = b[p] := by
  have hc := congrArg (fun col => col[(p - 1) / 15]) (h ⟨(p - 1) % 15, Nat.mod_lt _ (by decide)⟩)
  simp only [columnWord_at] at hc
  have hidx : (p - 1) % 15 + 1 + (p - 1) / 15 * 15 = p := by omega
  simpa only [hidx] using hc

theorem extractData_congr {a b : Bits 196} (h : ∀ c, columnWord a c = columnWord b c) :
    extractData a = extractData b := by
  ext1 i hi
  have hpos : (dataPositions[(⟨i, hi⟩ : Fin 96)]).val =
      if i < 8 then i + 4 else 16 + (i - 8) / 11 * 15 + (i - 8) % 11 := dataPositions_at ⟨i, hi⟩
  simp only [extractData, Vector.getElem_ofFn]
  apply eq_of_columnWord h
  rw [hpos]
  split <;> omega

/-- What is left after the row pass must be one error a column at most. -/
theorem bptcDecodeCorrect_of_residue (data : Bits 96) (errors : Bits 196) {rows : Bits 196 × UInt8}
    (hrows : (List.finRange 9).foldl correctRow (add (encodedMatrix data) (deinterleave errors), 0) = rows)
    {residue : Bits 196} (hresidue : rows.1 = add (encodedMatrix data) residue)
    (hone : ∀ c, AtMostOne (columnWord residue c)) :
    bptcDecodeCorrect (add (bptcEncode data) errors) = some (data,
      rows.2 + UInt8.ofNat ((List.finRange 15).countP fun c => isHit (columnWord residue c))) := by
  have hdeinterleave : deinterleave (bptcEncode data) = encodedMatrix data := deinterleave_interleave _
  have hmatrix (c : Fin 15) : columnWord rows.1 c = add (columnWord (encodedMatrix data) c) (columnWord residue c) := by
    rw [hresidue, columnWord_add]
  have hvalid (c : Fin 15) : Valid139 (columnWord (encodedMatrix data) c) := columnWord_checks data c
  obtain ⟨columns, hcolumns, hgood, hcount⟩ :=
    columnPass (List.nodup_finRange 15) List.mem_finRange rows.2 hvalid hmatrix hone
  have hdata : extractData columns.1 = data := (extractData_congr hgood).trans (extractData_encodedMatrix data)
  unfold bptcDecodeCorrect
  rw [deinterleave_add, hdeinterleave, hrows]
  simp only [hcolumns, hdata, hcount, Option.bind_eq_bind, Option.bind_some, Option.pure_def]

theorem encodedRow_codeword (data : Bits 96) (r : Fin 9) : Valid1511 (rowWord (encodedMatrix data) r) :=
  rowWord_checks data r

/-- What the row pass leaves of the errors: nothing in a row with one error at most, and the errors of the parity
rows as they are. -/
theorem rowPass_residue (data : Bits 96) (received : Bits 196) :
    ∃ rows residue, (List.finRange 9).foldl correctRow (add (encodedMatrix data) received, 0) = rows ∧
      rows.1 = add (encodedMatrix data) residue ∧
      (∀ r, AtMostOne (rowWord received r) → ∀ i, (hi : i < 15) → residue[r.val * 15 + 1 + i] = false) ∧
      (∀ p, (hp : p < 196) → 136 ≤ p → residue[p] = received[p]) ∧
      ((∀ r, AtMostOne (rowWord received r)) → rows.2 = UInt8.ofNat (rowsHit received)) := by
  obtain ⟨rows, hfold, hrow, houtside, hcount⟩ :=
    rowPass (List.nodup_finRange 9) List.mem_finRange (add (encodedMatrix data) received)
  have hdecoded (r : Fin 9) (hone : AtMostOne (rowWord received r)) :
      hamming1511Correct (rowWord (add (encodedMatrix data) received) r) =
        (rowWord (encodedMatrix data) r, isHit (rowWord received r)) := by
    rw [rowWord_add, hamming1511Correct_add (encodedRow_codeword data r) hone]
  refine ⟨rows, add rows.1 (encodedMatrix data), hfold, (add_add_cancel _ _).symm, ?_, ?_, ?_⟩
  · intro r hone i hi
    have hsame := hrow r
    rw [hdecoded r hone] at hsame
    rw [getElem_add, ← rowWord_at _ r i hi, hsame, rowWord_at _ r i hi, Bool.xor_self]
  · intro p hp hlate
    rw [getElem_add, houtside p hp (.inr hlate), getElem_add, Bool.xor_comm, ← Bool.xor_assoc, Bool.xor_self,
      Bool.false_xor]
  · intro hone
    have hhits : (fun r => (hamming1511Correct (rowWord (add (encodedMatrix data) received) r)).2) =
        fun r => isHit (rowWord received r) := by
      funext r
      rw [hdecoded r (hone r)]
    rw [hcount, hhits, rowsHit]

/-- A column whose data rows are clean has the errors of its parity rows, nine places further down. -/
theorem residue_iff {errors : Bits 196} {residue : Bits 13} {c : Fin 15}
    (hupper : ∀ i, (hi : i < 9) → residue[i] = false)
    (hlower : ∀ j : Fin 4, residue[9 + j.val] = (parityErrors errors c).get j) (i : Fin 13) :
    residue.get i = true ↔ ∃ j : Fin 4, i.val = 9 + j.val ∧ (parityErrors errors c).get j = true := by
  constructor
  · intro hi
    have hbit : residue[i.val] = true := hi
    by_cases h9 : i.val < 9
    · rw [hupper i h9] at hbit
      cases hbit
    · refine ⟨⟨i.val - 9, by omega⟩, by dsimp only; omega, ?_⟩
      show (parityErrors errors c)[i.val - 9] = true
      rw [← hbit]
      exact (hlower ⟨i.val - 9, by omega⟩).symm.trans (getElem_congr_idx (by dsimp only; omega))
  · rintro ⟨j, hij, hj⟩
    have hbit : residue[9 + j.val] = true := (hlower j).trans hj
    rw [← hbit]
    exact getElem_congr_idx hij

theorem isHit_residue {errors : Bits 196} {residue : Bits 13} {c : Fin 15}
    (h : ∀ i, residue.get i = true ↔ ∃ j : Fin 4, i.val = 9 + j.val ∧ (parityErrors errors c).get j = true) :
    isHit residue = isHit (parityErrors errors c) := by
  apply Bool.eq_iff_iff.mpr
  rw [isHit_iff, isHit_iff]
  constructor
  · rintro ⟨i, hi⟩
    obtain ⟨j, -, hj⟩ := (h i).mp hi
    exact ⟨j, hj⟩
  · rintro ⟨j, hj⟩
    exact ⟨⟨9 + j.val, by omega⟩, (h _).mpr ⟨j, rfl, hj⟩⟩

theorem atMostOne_residue {errors : Bits 196} {residue : Bits 13} {c : Fin 15}
    (h : ∀ i, residue.get i = true ↔ ∃ j : Fin 4, i.val = 9 + j.val ∧ (parityErrors errors c).get j = true)
    (hone : AtMostOne (parityErrors errors c)) : AtMostOne residue := by
  intro i i' hi hi'
  obtain ⟨j, hij, hj⟩ := (h i).mp hi
  obtain ⟨j', hij', hj'⟩ := (h i').mp hi'
  have hjj := congrArg Fin.val (hone j j' hj hj')
  apply Fin.ext
  omega

theorem bptc_scattered (data : Bits 96) {errors : Bits 196} (h : Scattered (deinterleave errors)) :
    ∃ count, bptcDecodeCorrect (add (bptcEncode data) errors) = some (data, count) ∧
      count.toNat = rowsHit (deinterleave errors) + columnsHit (deinterleave errors) := by
  obtain ⟨hrowsOne, hparityOne⟩ := h
  obtain ⟨rows, residue, hfold, hresidue, hclean, hparity, hcount⟩ := rowPass_residue data (deinterleave errors)
  have hupper (c : Fin 15) (i : Nat) (hi : i < 9) : (columnWord residue c)[i] = false := by
    rw [columnWord_at _ c i (by omega), ← hclean ⟨i, hi⟩ (hrowsOne _) c.val c.isLt]
    exact getElem_congr_idx (by dsimp only; omega)
  have hlower (c : Fin 15) (j : Fin 4) :
      (columnWord residue c)[9 + j.val] = (parityErrors (deinterleave errors) c).get j := by
    have hget : (parityErrors (deinterleave errors) c).get j = (deinterleave errors)[c.val + 1 + (9 + j.val) * 15] := by
      show (parityErrors (deinterleave errors) c)[j.val] = _
      simp only [parityErrors, Vector.getElem_ofFn]
    rw [columnWord_at _ c _ (by omega), hparity _ (by omega) (by omega), hget]
  have hhits : (fun c => isHit (columnWord residue c)) = fun c => isHit (parityErrors (deinterleave errors) c) :=
    funext fun c => isHit_residue (residue_iff (hupper c) (hlower c))
  have hone (c : Fin 15) : AtMostOne (columnWord residue c) :=
    atMostOne_residue (residue_iff (hupper c) (hlower c)) (hparityOne c)
  refine ⟨_, bptcDecodeCorrect_of_residue data errors hfold hresidue hone, ?_⟩
  have hrowsLe : rowsHit (deinterleave errors) ≤ 9 := List.countP_le_length.trans_eq List.length_finRange
  have hcolumnsLe : columnsHit (deinterleave errors) ≤ 15 := List.countP_le_length.trans_eq List.length_finRange
  rw [hcount hrowsOne, hhits]
  show (UInt8.ofNat (rowsHit (deinterleave errors)) + UInt8.ofNat (columnsHit (deinterleave errors))).toNat = _
  rw [UInt8.toNat_add, UInt8.toNat_ofNat', UInt8.toNat_ofNat']
  omega

theorem bptc_confined (data : Bits 96) {errors : Bits 196} {r : Fin 13} (h : Confined (deinterleave errors) r) :
    ∃ count, bptcDecodeCorrect (add (bptcEncode data) errors) = some (data, count) := by
  obtain ⟨rows, residue, hfold, hresidue, hclean, hparity, -⟩ := rowPass_residue data (deinterleave errors)
  have hzero (p : Nat) (hp : p < 196) (h0 : 0 < p) (hr : (p - 1) / 15 ≠ r.val) : (deinterleave errors)[p] = false := by
    by_contra hne
    have hbit : (deinterleave errors).get ⟨p, hp⟩ = true := by
      show (deinterleave errors)[p] = true
      simpa using hne
    rcases h ⟨p, hp⟩ hbit with h | h
    · exact absurd h (by dsimp only; omega)
    · exact hr h
  -- A column meets row `r` once.
  have hrow (c : Fin 15) (i : Nat) (hi : i < 13) (hir : i ≠ r.val) : (columnWord residue c)[i] = false := by
    rw [columnWord_at _ c i hi]
    by_cases h9 : i < 9
    · have hone : AtMostOne (rowWord (deinterleave errors) ⟨i, h9⟩) := by
        intro j _ hj
        have hbit : (rowWord (deinterleave errors) ⟨i, h9⟩)[j.val] = true := hj
        rw [rowWord_at _ _ _ j.isLt, hzero _ (by dsimp only; omega) (by omega) (by dsimp only; omega)] at hbit
        cases hbit
      rw [← hclean ⟨i, h9⟩ hone c.val c.isLt]
      exact getElem_congr_idx (by dsimp only; omega)
    · rw [hparity _ (by omega) (by omega), hzero _ (by omega) (by omega) (by omega)]
  have hone (c : Fin 15) : AtMostOne (columnWord residue c) := by
    have hat (i : Fin 13) (hi : (columnWord residue c).get i = true) : i = r := by
      by_contra hir
      have hbit : (columnWord residue c)[i.val] = true := hi
      rw [hrow c i.val i.isLt fun h => hir (Fin.ext h)] at hbit
      cases hbit
    intro i j hi hj
    rw [hat i hi, hat j hj]
  exact ⟨_, bptcDecodeCorrect_of_residue data errors hfold hresidue hone⟩

/-- The errors are numbered as they are received; `deinterleave` gives their places in the matrix. -/
theorem bptc_corrects (data : Bits 96) :
    bptcDecodeCorrect (bptcEncode data) = some (data, 0) ∧
      ∀ errors : Bits 196,
        (Scattered (deinterleave errors) →
          ∃ count, bptcDecodeCorrect (add (bptcEncode data) errors) = some (data, count) ∧
            count.toNat = rowsHit (deinterleave errors) + columnsHit (deinterleave errors)) ∧
        ∀ r, Confined (deinterleave errors) r →
          ∃ count, bptcDecodeCorrect (add (bptcEncode data) errors) = some (data, count) := by
  refine ⟨bptcDecodeCorrect_bptcEncode data, fun errors => ⟨?_, ?_⟩⟩
  · exact bptc_scattered data
  · intro r
    exact bptc_confined data

/-- Errors in these places of the matrix, as they are received. -/
def receivedErrors (places : List Nat) : Bits 196 := .ofFn fun i => decide (i.val ∈ places.map (· * 181 % 196))

theorem deinterleave_received {places : List Nat} (hplaces : ∀ p ∈ places, p < 196) (i : Nat) (hi : i < 196) :
    (deinterleave (receivedErrors places))[i] = true ↔ i ∈ places := by
  simp only [deinterleave, receivedErrors, Vector.getElem_ofFn, decide_eq_true_eq, List.mem_map]
  constructor
  · rintro ⟨p, hp, hsame⟩
    have hlt := hplaces p hp
    obtain rfl : p = i := by omega
    exact hp
  · intro hmem
    exact ⟨i, hmem, rfl⟩

/-- No two errors in one row or one column. -/
theorem scattered_received {places : List Nat} (hplaces : ∀ p ∈ places, p < 196)
    (hapart : ∀ p ∈ places, ∀ q ∈ places, (p - 1) / 15 = (q - 1) / 15 ∨ p % 15 = q % 15 → p = q) :
    Scattered (deinterleave (receivedErrors places)) := by
  refine ⟨fun r i j hi hj => ?_, fun c i j hi hj => ?_⟩
  · have hi' : (rowWord (deinterleave (receivedErrors places)) r)[i.val] = true := hi
    have hj' : (rowWord (deinterleave (receivedErrors places)) r)[j.val] = true := hj
    rw [rowWord_at _ _ _ i.isLt, deinterleave_received hplaces] at hi'
    rw [rowWord_at _ _ _ j.isLt, deinterleave_received hplaces] at hj'
    have hsame := hapart _ hi' _ hj' (.inl (by omega))
    apply Fin.ext
    omega
  · have hi' : (parityErrors (deinterleave (receivedErrors places)) c)[i.val] = true := hi
    have hj' : (parityErrors (deinterleave (receivedErrors places)) c)[j.val] = true := hj
    rw [parityErrors, Vector.getElem_ofFn, deinterleave_received hplaces] at hi' hj'
    have hsame : c.val + 1 + (9 + i.val) * 15 = c.val + 1 + (9 + j.val) * 15 :=
      hapart _ hi' _ hj' (.inr (by dsimp only; omega))
    apply Fin.ext
    omega

theorem confined_received {places : List Nat} (hplaces : ∀ p ∈ places, p < 196) (r : Fin 13)
    (hrow : ∀ p ∈ places, (p - 1) / 15 = r.val) : Confined (deinterleave (receivedErrors places)) r := by
  intro p hp
  have hbit : (deinterleave (receivedErrors places))[p.val] = true := hp
  rw [deinterleave_received hplaces] at hbit
  exact .inr (hrow p.val hbit)

/-- Three data rows and a parity row are hit once each, and then one row four times. -/
theorem bptc_corrects_sample :
    (∃ count, bptcDecodeCorrect (add (bptcEncode (.replicate 96 true)) (receivedErrors [1, 17, 33, 140])) =
        some (.replicate 96 true, count) ∧
      count.toNat = rowsHit (deinterleave (receivedErrors [1, 17, 33, 140])) +
        columnsHit (deinterleave (receivedErrors [1, 17, 33, 140]))) ∧
      ∃ count, bptcDecodeCorrect (add (bptcEncode (.replicate 96 true)) (receivedErrors [31, 33, 38, 45])) =
        some (.replicate 96 true, count) := by
  obtain ⟨-, h⟩ := bptc_corrects (.replicate 96 true)
  exact ⟨(h (receivedErrors [1, 17, 33, 140])).1 (scattered_received (by decide) (by decide)),
    (h (receivedErrors [31, 33, 38, 45])).2 2 (confined_received (by decide) 2 (by decide))⟩

end DmrBridge
