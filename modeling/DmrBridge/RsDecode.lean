import DmrBridge.Gf256
import DmrBridge.Lib.ReedSolomon

/-!
# Reed-Solomon decoding

The syndromes of a 12-byte word and the correction of a single byte, over the field of the tables.
-/

open ReedSolomon

namespace DmrBridge

/-! ## Words over the field -/

def symbols (word : Bytes 12) : List Gf256 := word.toList.map Gf256.mk

theorem length_symbols (word : Bytes 12) : (symbols word).length = 12 := by simp [symbols]

theorem symbols_getElem (word : Bytes 12) (k : Nat) (hk : k < (symbols word).length) (h : k < 12) :
    (symbols word)[k] = ⟨word[k]⟩ := by
  simp [symbols]

theorem symbols_set (word : Bytes 12) (k : Nat) (h : k < 12) (b : UInt8) :
    symbols (word.set k b) = (symbols word).set k ⟨b⟩ := by
  simp [symbols, Vector.toList_set, List.map_set]

theorem horner_symbols (x : UInt8) (l : List UInt8) (acc : UInt8) :
    (⟨l.foldl (fun acc c => gmult acc x ^^^ c) acc⟩ : Gf256) =
      (l.map Gf256.mk).foldl (fun acc c => acc * ⟨x⟩ + c) ⟨acc⟩ := by
  induction l generalizing acc with
  | nil => rfl
  | cons c l ih => exact ih _

theorem syndrome_eq_value (word : Bytes 12) (i : Nat) (h : i < 3) :
    (⟨(rs129Syndromes word)[i]⟩ : Gf256) = value (Gf256.alpha ^ (i + 1)) (symbols word) := by
  rw [rs129Syndromes, Vector.getElem_ofFn, horner_symbols, expTable_get, Gf256.mk_expAt (by omega)]
  rfl

theorem isCodeword_iff (word : Bytes 12) :
    IsCodeword word ↔ ∀ i < 3, value (Gf256.alpha ^ (i + 1)) (symbols word) = 0 := by
  constructor
  · intro h i hi
    rw [← syndrome_eq_value word i hi, Gf256.mk_eq_zero, h]
    rcases (by omega : i = 0 ∨ i = 1 ∨ i = 2) with rfl | rfl | rfl <;> rfl
  · intro h
    ext1 i hi
    have hi0 := h i hi
    rw [← syndrome_eq_value word i hi, Gf256.mk_eq_zero] at hi0
    rw [hi0]
    rcases (by omega : i = 0 ∨ i = 1 ∨ i = 2) with rfl | rfl | rfl <;> rfl

/-! ## Encoded words -/

def registerOf (parity : Bytes 3) : Gf256 × Gf256 × Gf256 :=
  (⟨(coefficients parity).1⟩, ⟨(coefficients parity).2.1⟩, ⟨(coefficients parity).2.2⟩)

def generator : Gf256 × Gf256 × Gf256 := registerOf poly

theorem registerOf_encode (data : List UInt8) (parity : Bytes 3) :
    registerOf (data.foldl rsStep parity) = (data.map Gf256.mk).foldl (register generator) (registerOf parity) := by
  induction data generalizing parity with
  | nil => rfl
  | cons b data ih => exact ih _

theorem generator_root (i : Fin 3) :
    (Gf256.alpha ^ (i.val + 1)) ^ 3 = check (Gf256.alpha ^ (i.val + 1)) generator := by
  revert i
  decide +kernel

theorem isCodeword_rs129Codeword (data : Bytes 9) : IsCodeword (rs129Codeword data) := by
  rw [isCodeword_iff]
  intro i hi
  have hregister := registerOf_encode data.toList #v[0, 0, 0]
  have hvalue := value_codeword (generator_root ⟨i, hi⟩) (data.toList.map Gf256.mk) hregister.symm
  have hsymbols : symbols (rs129Codeword data) = data.toList.map Gf256.mk ++
      [⟨(rs129Encode data)[2]⟩, ⟨(rs129Encode data)[1]⟩, ⟨(rs129Encode data)[0]⟩] := by
    simp only [symbols, rs129Codeword, Vector.toList_append, List.map_append]
    rfl
  rw [hsymbols]
  exact hvalue

/-- The syndromes of a codeword with an error pattern on it are those of the pattern. -/
theorem rs129Syndromes_xor {word : Bytes 12} (h : IsCodeword word) (pattern : Bytes 12) :
    rs129Syndromes (word.zipWith (· ^^^ ·) pattern) = rs129Syndromes pattern := by
  ext1 i hi
  have hsymbols : symbols (word.zipWith (· ^^^ ·) pattern) = List.zipWith (· + ·) (symbols word) (symbols pattern) := by
    apply List.ext_getElem (by simp [symbols])
    intro j _ _
    simp [symbols, Gf256.mk_xor]
  apply Gf256.mk.inj
  rw [syndrome_eq_value _ i hi, syndrome_eq_value _ i hi, hsymbols, value_zipWith _ _ _ (by simp [length_symbols]),
    (isCodeword_iff word).mp h i hi, zero_add]

/-- Whether a word can be corrected shows in its syndromes alone. -/
theorem rs129Correct_of_syndromes {word word' : Bytes 12} (h : rs129Syndromes word = rs129Syndromes word') :
    (rs129Correct word).2 = (rs129Correct word').2 := by
  simp only [rs129Correct, h]
  split_ifs <;> rfl

/-! ## One wrong byte -/

theorem rs129Correct_of_isCodeword {word : Bytes 12} (h : IsCodeword word) : rs129Correct word = (word, true) := by
  unfold rs129Correct
  simp only [show rs129Syndromes word = #v[0, 0, 0] from h]
  exact if_pos ⟨rfl, rfl, rfl⟩

@[simp]
theorem xorDegree_self (word : Bytes 12) (p : Nat) (e : UInt8) : xorDegree (xorDegree word p e) p e = word := by
  ext1 i hi
  by_cases hp : 11 - p = i
  · subst hp
    simp only [xorDegree, Vector.getElem_set_self, UInt8.xor_assoc, UInt8.xor_self, UInt8.xor_zero]
  · simp only [xorDegree, Vector.getElem_set_ne _ _ hp]

/-- A change `e` of the byte of degree `p` shows in each syndrome. -/
theorem syndrome_xorDegree (word : Bytes 12) {p : Nat} (hp : p < 12) (e : UInt8) (i : Nat) (hi : i < 3) :
    (⟨(rs129Syndromes (xorDegree word p e))[i]⟩ : Gf256) =
      ⟨(rs129Syndromes word)[i]⟩ + ⟨e⟩ * (Gf256.alpha ^ (i + 1)) ^ p := by
  have hlen : 11 - p < (symbols word).length := by
    rw [length_symbols]
    omega
  have hset := value_set (Gf256.alpha ^ (i + 1)) (symbols word) (11 - p) hlen ⟨e⟩
  have hdegree : 12 - 1 - (11 - p) = p := by omega
  rw [symbols_getElem word _ hlen (by omega), length_symbols, hdegree] at hset
  rw [syndrome_eq_value _ i hi, syndrome_eq_value _ i hi, xorDegree, symbols_set, Gf256.mk_xor, hset]

theorem syndrome_of_error {word : Bytes 12} (h : IsCodeword word) {p : Nat} (hp : p < 12) (e : UInt8) (i : Nat)
    (hi : i < 3) :
    (⟨(rs129Syndromes (xorDegree word p e))[i]⟩ : Gf256) = ⟨e⟩ * (Gf256.alpha ^ (i + 1)) ^ p := by
  rw [syndrome_xorDegree word hp e i hi, syndrome_eq_value word i hi, (isCodeword_iff word).mp h i hi, zero_add]

theorem rs129Correct_of_error {word : Bytes 12} (h : IsCodeword word) {p : Nat} (hp : p < 12) {e : UInt8}
    (he : e ≠ 0) : rs129Correct (xorDegree word p e) = (word, true) := by
  have hα := Gf256.alpha_ne_zero
  have heF : (⟨e⟩ : Gf256) ≠ 0 := fun h0 => he (Gf256.mk_eq_zero.mp h0)
  have hs1 := syndrome_of_error h hp e 0 (by decide)
  have hs2 := syndrome_of_error h hp e 1 (by decide)
  have hs3 := syndrome_of_error h hp e 2 (by decide)
  unfold rs129Correct
  generalize rs129Syndromes (xorDegree word p e) = s at hs1 hs2 hs3
  simp only [Nat.zero_add, pow_one, Nat.reduceAdd] at hs1 hs2 hs3
  have hne1 : s[0] ≠ 0 := by
    rw [Ne, ← Gf256.mk_eq_zero, hs1]
    exact mul_ne_zero heF (pow_ne_zero _ hα)
  have hne2 : s[1] ≠ 0 := by
    rw [Ne, ← Gf256.mk_eq_zero, hs2]
    exact mul_ne_zero heF (pow_ne_zero _ (pow_ne_zero _ hα))
  have hconsistent : gmult s[0] s[2] = gmult s[1] s[1] := by
    apply Gf256.mk.inj
    rw [Gf256.mk_gmult, Gf256.mk_gmult, hs1, hs2, hs3]
    exact consistent _ _ _
  have hlocator : gdiv s[1] s[0] = expAt p := by
    apply Gf256.mk.inj
    rw [Gf256.mk_gdiv _ hne1, hs1, hs2, locator hα heF, Gf256.mk_expAt (by omega)]
  have hexp : expAt p ≠ 0 := by
    rw [Ne, ← Gf256.mk_eq_zero, Gf256.mk_expAt (by omega)]
    exact pow_ne_zero _ hα
  have hmagnitude : gdiv s[0] (expAt p) = e := by
    apply Gf256.mk.inj
    rw [Gf256.mk_gdiv _ hexp, hs1, Gf256.mk_expAt (by omega), magnitude hα]
  dsimp only
  rw [if_neg (fun h0 => hne1 h0.1), if_neg (not_or.mpr ⟨hne1, hne2⟩), if_neg (not_not.mpr hconsistent), hlocator,
    logOf_expAt (by omega), if_neg (by omega), hmagnitude, xorDegree_self]

theorem xorDegree_differs (word received : Bytes 12) {k : Nat} (hk : k < 12)
    (hsame : ∀ i, (hi : i < 12) → i ≠ k → received[i] = word[i]) :
    received = xorDegree word (11 - k) (word[k] ^^^ received[k]) := by
  have hdegree : 11 - (11 - k) = k := by omega
  simp only [xorDegree, hdegree]
  ext1 i hi
  by_cases hik : k = i
  · subst hik
    rw [Vector.getElem_set_self, ← UInt8.xor_assoc, UInt8.xor_self, UInt8.zero_xor]
  · simp [hik, hsame i hi (Ne.symm hik)]

/-- A word that differs from a codeword in byte `k` at most is corrected to it. -/
theorem rs129Correct_of_differs {word received : Bytes 12} (h : IsCodeword word) {k : Nat} (hk : k < 12)
    (hsame : ∀ i, (hi : i < 12) → i ≠ k → received[i] = word[i]) : rs129Correct received = (word, true) := by
  have hreceived := xorDegree_differs word received hk hsame
  by_cases he : word[k] ^^^ received[k] = 0
  · have heq : received = word := by
      rw [hreceived, he]
      simp [xorDegree]
    rw [heq]
    exact rs129Correct_of_isCodeword h
  · rw [hreceived]
    exact rs129Correct_of_error h (by omega) he

end DmrBridge
