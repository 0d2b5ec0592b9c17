import DmrBridge.RsDecode

/-!
# Reed-Solomon correction of every word

`rs_12_9_correct` accepts a word exactly when one byte at most separates it from a codeword.
-/

open ReedSolomon

namespace DmrBridge

/-! ## Panics -/

theorem logTable_get? (a : UInt8) : logTable[a.toNat]? = some (logTable.get ⟨a.toNat, index_u8 a⟩) :=
  Vector.getElem?_eq_getElem (index_u8 a)

theorem expTable_get? (i : Nat) (h : i < 512) : expTable[i]? = some (expTable.get ⟨i, h⟩) :=
  Vector.getElem?_eq_getElem h

theorem gmult?_eq (a b : UInt8) : gmult? a b = some (gmult a b) := by
  unfold gmult? gmult
  split
  · rfl
  · rw [logTable_get?, logTable_get?]
    exact expTable_get? _ _

theorem gdiv?_eq (a : UInt8) {b : UInt8} (hb : b ≠ 0) : gdiv? a b = some (gdiv a b) := by
  unfold gdiv? gdiv
  split
  · rfl
  · have hlog : ¬ logOf a + 255 < logOf b := by
      have hlt := logOf_lt b
      omega
    rw [logTable_get?, logTable_get?]
    simp only [Option.bind_eq_bind, Option.bind_some]
    exact (if_neg hlog).trans (expTable_get? _ _)

theorem rs129Encode?_eq (data : Bytes 9) : rs129Encode? data = some (rs129Encode data) := by
  have hstep (parity : Bytes 3) (byte : UInt8) : rsStep? parity byte = some (rsStep parity byte) := by
    simp only [rsStep?, gmult?_eq]
    rfl
  unfold rs129Encode? rs129Encode
  rw [funext₂ hstep]
  exact List.foldlM_pure

theorem syndrome?_eq (codeword : Bytes 12) (i : Nat) (h : i < 3) :
    syndrome? codeword i = some (rs129Syndromes codeword)[i] := by
  unfold syndrome?
  rw [expTable_get? _ (by omega), rs129Syndromes, Vector.getElem_ofFn]
  simp only [Option.bind_eq_bind, Option.bind_some, gmult?_eq, Option.map_some]
  exact List.foldlM_pure

theorem xorDegree?_eq (codeword : Bytes 12) {p : Nat} (hp : p < 12) (e : UInt8) :
    xorDegree? codeword p e = some (xorDegree codeword p e) := by
  have hlt : 11 - p < 12 := by omega
  unfold xorDegree? xorDegree
  rw [if_neg (by omega), Vector.getElem?_eq_getElem hlt]
  simp only [Option.bind_eq_bind, Option.bind_some, Option.pure_def, Option.some.injEq]
  ext1 i hi
  simp [Vector.getElem_set, Vector.getElem_setIfInBounds]

/-- The locator of two syndromes that are not zero is not zero. -/
theorem gdiv_ne_zero {a b : UInt8} (ha : a ≠ 0) (hb : b ≠ 0) : gdiv a b ≠ 0 := by
  intro h
  have hback := gdiv_gmult a hb
  rw [h, zero_gmult] at hback
  exact ha hback.symm

theorem rs129Correct?_eq (codeword : Bytes 12) : rs129Correct? codeword = some (rs129Correct codeword) := by
  unfold rs129Correct? rs129Correct
  rw [syndrome?_eq _ 0 (by decide), syndrome?_eq _ 1 (by decide), syndrome?_eq _ 2 (by decide)]
  simp only [Option.bind_eq_bind, Option.bind_some, gmult?_eq, logTable_get?]
  split
  · rfl
  split
  · rfl
  split
  · rfl
  rename_i _ hne _
  obtain ⟨h1, h2⟩ := not_or.mp hne
  simp only [gdiv?_eq _ h1, gdiv?_eq _ (gdiv_ne_zero h2 h1), Option.bind_some]
  split
  · rename_i hp
    exact (congrArg some (if_pos hp)).symm
  · rename_i hp
    rw [xorDegree?_eq _ (by omega)]
    exact (congrArg some (if_neg hp)).symm

/-! ## Codewords -/

/-- One byte at most is different. -/
def WithinOneByte (word codeword : Bytes 12) : Prop :=
  ∃ k < 12, ∀ i, (hi : i < 12) → i ≠ k → word[i] = codeword[i]

theorem alpha_pow_injective {p q : Nat} (hp : p < 12) (hq : q < 12) (h : Gf256.alpha ^ p = Gf256.alpha ^ q) :
    p = q := by
  rw [← Gf256.mk_expAt (by omega), ← Gf256.mk_expAt (by omega)] at h
  rw [← logOf_expAt (i := p) (by omega), ← logOf_expAt (i := q) (by omega), Gf256.mk.inj h]

/-- A word is its message times `x ^ 3` and its checks. -/
theorem value_symbols_append (x : Gf256) (data : Bytes 9) (c0 c1 c2 : UInt8) :
    value x (symbols (data ++ #v[c0, c1, c2])) =
      value x (data.toList.map Gf256.mk) * x ^ 3 + check x (⟨c2⟩, ⟨c1⟩, ⟨c0⟩) := by
  unfold symbols
  rw [Vector.toList_append, List.map_append, value_append]
  simp only [value, check, Vector.toList_mk, List.map_cons, List.map_nil, List.foldl_cons, List.foldl_nil,
    List.length_cons, List.length_nil]
  ring

/-- The message leaves no choice of the checks. -/
theorem checks_unique {data : Bytes 9} {c0 c1 c2 d0 d1 d2 : UInt8} (h : IsCodeword (data ++ #v[c0, c1, c2]))
    (h' : IsCodeword (data ++ #v[d0, d1, d2])) : c0 = d0 ∧ c1 = d1 ∧ c2 = d2 := by
  have hroot (i : Nat) (hi : i < 3) :
      check (Gf256.alpha ^ (i + 1)) ((⟨c2⟩ : Gf256) - ⟨d2⟩, (⟨c1⟩ : Gf256) - ⟨d1⟩, (⟨c0⟩ : Gf256) - ⟨d0⟩) = 0 := by
    have hword := (isCodeword_iff _).mp h i hi
    have hword' := (isCodeword_iff _).mp h' i hi
    rw [value_symbols_append] at hword hword'
    unfold check at hword hword' ⊢
    linear_combination hword - hword'
  have hdistinct {p q : Nat} (hp : p < 12) (hq : q < 12) (hpq : p ≠ q) : Gf256.alpha ^ p ≠ Gf256.alpha ^ q :=
    fun h => hpq (alpha_pow_injective hp hq h)
  have hzero := eq_zero_of_check (hdistinct (by decide) (by decide) (by decide))
    (hdistinct (by decide) (by decide) (by decide)) (hdistinct (by decide) (by decide) (by decide))
    (hroot 0 (by decide)) (hroot 1 (by decide)) (hroot 2 (by decide))
  rw [Prod.mk_eq_zero, Prod.mk_eq_zero, sub_eq_zero, sub_eq_zero, sub_eq_zero] at hzero
  obtain ⟨h2, h1, h0⟩ := hzero
  exact ⟨Gf256.mk.inj h0, Gf256.mk.inj h1, Gf256.mk.inj h2⟩

/-- The words without syndromes are those the encoder makes. -/
theorem isCodeword_iff_encoded (word : Bytes 12) : IsCodeword word ↔ ∃ data, rs129Codeword data = word := by
  constructor
  · intro h
    obtain ⟨data, c0, c1, c2, rfl⟩ : ∃ (data : Bytes 9) (c0 c1 c2 : UInt8), word = data ++ #v[c0, c1, c2] := by
      refine ⟨.ofFn fun i => word[i.val], word[9], word[10], word[11], ?_⟩
      ext1 i hi
      rw [Vector.getElem_append]
      split
      · rw [Vector.getElem_ofFn]
      · rcases (by omega : i = 9 ∨ i = 10 ∨ i = 11) with rfl | rfl | rfl <;> rfl
    obtain ⟨rfl, rfl, rfl⟩ := checks_unique h (isCodeword_rs129Codeword data)
    exact ⟨data, rfl⟩
  · rintro ⟨data, rfl⟩
    exact isCodeword_rs129Codeword data

/-! ## Correction -/

theorem xorDegree_withinOneByte (word : Bytes 12) {p : Nat} (hp : p < 12) (e : UInt8) :
    WithinOneByte word (xorDegree word p e) := by
  refine ⟨11 - p, by omega, fun i hi hne => ?_⟩
  unfold xorDegree
  rw [Vector.getElem_set_ne _ _ (Ne.symm hne)]

/-- When the syndromes pass the checks, the change of the decoder clears them. -/
theorem isCodeword_xorDegree {word : Bytes 12} {s1 s2 s3 : UInt8} (hs : rs129Syndromes word = #v[s1, s2, s3])
    (h1 : s1 ≠ 0) (h2 : s2 ≠ 0) (hconsistent : gmult s1 s3 = gmult s2 s2) (hp : logOf (gdiv s2 s1) < 12) :
    IsCodeword (xorDegree word (logOf (gdiv s2 s1)) (gdiv s1 (gdiv s2 s1))) := by
  have hne1 : (⟨s1⟩ : Gf256) ≠ 0 := fun h => h1 (Gf256.mk_eq_zero.mp h)
  have hne2 : (⟨s2⟩ : Gf256) ≠ 0 := fun h => h2 (Gf256.mk_eq_zero.mp h)
  have hlocator := gdiv_ne_zero h2 h1
  have hpower : Gf256.alpha ^ logOf (gdiv s2 s1) = (⟨s2⟩ : Gf256) / ⟨s1⟩ := by
    rw [← Gf256.mk_expAt (by omega), expAt_logOf hlocator, Gf256.mk_gdiv _ h1]
  have hmagnitude : (⟨gdiv s1 (gdiv s2 s1)⟩ : Gf256) = ⟨s1⟩ / (⟨s2⟩ / ⟨s1⟩) := by
    rw [Gf256.mk_gdiv _ hlocator, Gf256.mk_gdiv _ h1]
  have hproducts : (⟨s1⟩ : Gf256) * ⟨s3⟩ = ⟨s2⟩ * ⟨s2⟩ := by
    rw [← Gf256.mk_gmult, ← Gf256.mk_gmult, hconsistent]
  obtain ⟨hfirst, hsecond, hthird⟩ := located hne1 hne2 hproducts
  have hclear (i : Nat) (hi : i < 3) {s : UInt8} (hsi : (rs129Syndromes word)[i] = s)
      (hi' : (⟨s1⟩ : Gf256) / (⟨s2⟩ / ⟨s1⟩) * (⟨s2⟩ / ⟨s1⟩) ^ (i + 1) = ⟨s⟩) :
      (rs129Syndromes (xorDegree word (logOf (gdiv s2 s1)) (gdiv s1 (gdiv s2 s1))))[i] = 0 := by
    rw [← Gf256.mk_eq_zero, syndrome_xorDegree word hp _ i hi, pow_right_comm, hpower, hmagnitude, hi', hsi]
    exact Gf256.add_self _
  ext1 i hi
  rcases (by omega : i = 0 ∨ i = 1 ∨ i = 2) with rfl | rfl | rfl
  · exact hclear 0 hi (s := s1) (by simp only [hs]; rfl) (by rw [Nat.zero_add, pow_one, hfirst])
  · exact hclear 1 hi (s := s2) (by simp only [hs]; rfl) hsecond
  · exact hclear 2 hi (s := s3) (by simp only [hs]; rfl) hthird

/-- A word is left alone or becomes a codeword. -/
theorem rs129Correct_cases (word : Bytes 12) :
    rs129Correct word = (word, false) ∨
      ∃ codeword, rs129Correct word = (codeword, true) ∧ IsCodeword codeword ∧ WithinOneByte word codeword := by
  obtain ⟨s1, s2, s3, hs⟩ : ∃ s1 s2 s3, rs129Syndromes word = #v[s1, s2, s3] := by
    refine ⟨(rs129Syndromes word)[0], (rs129Syndromes word)[1], (rs129Syndromes word)[2], ?_⟩
    ext1 i hi
    rcases (by omega : i = 0 ∨ i = 1 ∨ i = 2) with rfl | rfl | rfl <;> rfl
  unfold rs129Correct
  simp only [hs, Vector.getElem_mk, List.getElem_toArray, List.getElem_cons_zero, List.getElem_cons_succ]
  split
  · rename_i hzero
    obtain ⟨rfl, rfl, rfl⟩ := hzero
    exact .inr ⟨word, rfl, hs, 0, by decide, fun i hi _ => rfl⟩
  split
  · exact .inl rfl
  split
  · exact .inl rfl
  split
  · exact .inl rfl
  · rename_i _ hne hconsistent hp
    obtain ⟨h1, h2⟩ := not_or.mp hne
    have hp12 : logOf (gdiv s2 s1) < 12 := by omega
    exact .inr ⟨_, rfl, isCodeword_xorDegree hs h1 h2 (not_not.mp hconsistent) hp12,
      xorDegree_withinOneByte word hp12 _⟩

theorem rs129Correct_of_withinOneByte {word codeword : Bytes 12} (hcode : IsCodeword codeword)
    (h : WithinOneByte word codeword) : rs129Correct word = (codeword, true) := by
  obtain ⟨k, hk, hsame⟩ := h
  exact rs129Correct_of_differs hcode hk hsame

/-- Two wrong bytes leave syndromes that no single wrong byte leaves. -/
theorem rs129Correct_of_two {codeword : Bytes 12} (hcode : IsCodeword codeword) {p q : Nat} (hp : p < 12) (hq : q < 12)
    (hpq : p ≠ q) {e f : UInt8} (he : e ≠ 0) (hf : f ≠ 0) :
    rs129Correct (xorDegree (xorDegree codeword p e) q f) = (xorDegree (xorDegree codeword p e) q f, false) := by
  have heF : (⟨e⟩ : Gf256) ≠ 0 := fun h => he (Gf256.mk_eq_zero.mp h)
  have hfF : (⟨f⟩ : Gf256) ≠ 0 := fun h => hf (Gf256.mk_eq_zero.mp h)
  have hsyndrome (i : Nat) (hi : i < 3) :
      (⟨(rs129Syndromes (xorDegree (xorDegree codeword p e) q f))[i]⟩ : Gf256) =
        ⟨e⟩ * (Gf256.alpha ^ p) ^ (i + 1) + ⟨f⟩ * (Gf256.alpha ^ q) ^ (i + 1) := by
    rw [syndrome_xorDegree _ hq f i hi, syndrome_of_error hcode hp e i hi, pow_right_comm, pow_right_comm _ (i + 1)]
  have hinconsistent := two_errors_inconsistent heF hfF (pow_ne_zero p Gf256.alpha_ne_zero)
    (pow_ne_zero q Gf256.alpha_ne_zero) fun h => hpq (alpha_pow_injective hp hq h)
  have hs1 := hsyndrome 0 (by decide)
  have hs2 := hsyndrome 1 (by decide)
  have hs3 := hsyndrome 2 (by decide)
  unfold rs129Correct
  generalize rs129Syndromes (xorDegree (xorDegree codeword p e) q f) = s at hs1 hs2 hs3
  simp only [Nat.zero_add, pow_one, Nat.reduceAdd] at hs1 hs2 hs3
  rw [← hs1, ← hs2, ← hs3, ← Gf256.mk_gmult, ← Gf256.mk_gmult] at hinconsistent
  dsimp only
  split
  · rename_i hzero
    rw [hzero.1, hzero.2.1, zero_gmult, zero_gmult] at hinconsistent
    exact absurd rfl hinconsistent
  split
  · rfl
  · rw [if_pos fun h => hinconsistent (congrArg Gf256.mk h)]

theorem rs129Correct_of_two_bytes {codeword word : Bytes 12} (hcode : IsCodeword codeword) {j k : Nat} (hj : j < 12)
    (hk : k < 12) (hjk : j ≠ k) (hwrongJ : word[j] ≠ codeword[j]) (hwrongK : word[k] ≠ codeword[k])
    (hsame : ∀ i, (hi : i < 12) → i ≠ j → i ≠ k → word[i] = codeword[i]) : rs129Correct word = (word, false) := by
  have hmid := xorDegree_differs codeword (codeword.set j word[j]) hj fun i hi hij =>
    Vector.getElem_set_ne _ _ (Ne.symm hij)
  have hword := xorDegree_differs (codeword.set j word[j]) word hk fun i hi hik => by
    by_cases hij : j = i
    · subst hij
      exact (Vector.getElem_set_self _).symm
    · rw [Vector.getElem_set_ne _ _ hij]
      exact hsame i hi (Ne.symm hij) hik
  have hxor {a b : UInt8} (h : b ≠ a) : a ^^^ b ≠ 0 := fun h0 => h (UInt8.xor_eq_zero_iff.mp h0).symm
  rw [Vector.getElem_set_self] at hmid
  rw [Vector.getElem_set_ne _ _ hjk, hmid] at hword
  rw [hword]
  exact rs129Correct_of_two hcode (by omega) (by omega) (by omega) (hxor hwrongJ) (hxor hwrongK)

theorem rs129_decoding :
    (∀ data, rs129Syndromes (rs129Codeword data) = #v[0, 0, 0]) ∧
      (∀ data, rs129Encode? data = some (rs129Encode data)) ∧
      ∀ word, rs129Correct? word = some (rs129Correct word) ∧
        ((rs129Correct word).2 = true ↔ ∃ data, WithinOneByte word (rs129Codeword data)) ∧
        (∀ data, WithinOneByte word (rs129Codeword data) → (rs129Correct word).1 = rs129Codeword data ∧
          rs129Syndromes (rs129Correct word).1 = #v[0, 0, 0]) ∧
        ((rs129Correct word).2 = false → (rs129Correct word).1 = word) ∧
        ∀ data j k, (hj : j < 12) → (hk : k < 12) → j ≠ k → word[j] ≠ (rs129Codeword data)[j] →
          word[k] ≠ (rs129Codeword data)[k] →
          (∀ i, (hi : i < 12) → i ≠ j → i ≠ k → word[i] = (rs129Codeword data)[i]) →
          rs129Correct word = (word, false) := by
  refine ⟨isCodeword_rs129Codeword, rs129Encode?_eq, fun word => ⟨rs129Correct?_eq word, ?_, ?_, ?_, ?_⟩⟩
  · constructor
    · intro h
      rcases rs129Correct_cases word with hleft | ⟨codeword, -, hcode, hnear⟩
      · rw [hleft] at h
        cases h
      · obtain ⟨data, rfl⟩ := (isCodeword_iff_encoded codeword).mp hcode
        exact ⟨data, hnear⟩
    · rintro ⟨data, hnear⟩
      rw [rs129Correct_of_withinOneByte (isCodeword_rs129Codeword data) hnear]
  · intro data hnear
    rw [rs129Correct_of_withinOneByte (isCodeword_rs129Codeword data) hnear]
    exact ⟨rfl, isCodeword_rs129Codeword data⟩
  · intro h
    rcases rs129Correct_cases word with hleft | ⟨codeword, hright, -⟩
    · rw [hleft]
    · rw [hright] at h
      cases h
  · intro data j k hj hk hjk hwrongJ hwrongK hsame
    exact rs129Correct_of_two_bytes (isCodeword_rs129Codeword data) hj hk hjk hwrongJ hwrongK hsame

theorem rs129_decoding_sample :
    (rs129Correct #v[0, 0, 0, 7, 0, 0, 0, 0, 0, 0, 0, 0]).1 = rs129Codeword (.replicate 9 0) ∧
      rs129Correct #v[0, 0, 0, 7, 0, 0, 0, 9, 0, 0, 0, 0] = (#v[0, 0, 0, 7, 0, 0, 0, 9, 0, 0, 0, 0], false) := by
  have hone : ∀ i, (hi : i < 12) → i ≠ 3 →
      (#v[0, 0, 0, 7, 0, 0, 0, 0, 0, 0, 0, 0] : Bytes 12)[i] = (rs129Codeword (.replicate 9 0))[i] := by decide
  have htwo : ∀ i, (hi : i < 12) → i ≠ 3 → i ≠ 7 →
      (#v[0, 0, 0, 7, 0, 0, 0, 9, 0, 0, 0, 0] : Bytes 12)[i] = (rs129Codeword (.replicate 9 0))[i] := by decide
  have h3 : (7 : UInt8) ≠ (rs129Codeword (.replicate 9 0))[3] := by decide
  have h7 : (9 : UInt8) ≠ (rs129Codeword (.replicate 9 0))[7] := by decide
  obtain ⟨-, -, h⟩ := rs129_decoding
  obtain ⟨-, -, hcorrected, -, -⟩ := h #v[0, 0, 0, 7, 0, 0, 0, 0, 0, 0, 0, 0]
  obtain ⟨-, -, -, -, hrejected⟩ := h #v[0, 0, 0, 7, 0, 0, 0, 9, 0, 0, 0, 0]
  exact ⟨(hcorrected _ ⟨3, by decide, hone⟩).1, hrejected _ 3 7 (by decide) (by decide) (by decide) h3 h7 htwo⟩

end DmrBridge
