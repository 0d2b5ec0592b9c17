import DmrBridge.EmbeddedLc
import DmrBridge.Lib.MsbBits
import Mathlib.Data.List.FinRange
import Mathlib.Data.List.Induction

/-!
# Reading a talker alias

The receiver's side: TA_Length in the header, and the TA_Data bits of header and blocks as 7-bit
characters.
-/

open MsbBits

namespace DmrBridge

/-! ## The reader -/

def bodyBits (body : Bytes 9) : List Bool := body.toList.flatMap fun b => msbBits 8 b.toNat

/-- Bits 18 to 22, behind FLCO, FID and TA_Format. -/
def taLength (header : Bytes 9) : Nat := ofMsbBits (((bodyBits header).drop 18).take 5)

/-- 49 bits of the header, 56 of each block. -/
def taData : List (Bytes 9) → List Bool
  | [] => []
  | header :: blocks => (bodyBits header).drop 23 ++ blocks.flatMap fun block => (bodyBits block).drop 16

def readTalkerAlias : List (Bytes 9) → List UInt8
  | [] => []
  | header :: blocks => (readFields 7 (taLength header) (taData (header :: blocks))).map UInt8.ofNat

/-! ## The bodies -/

/-- What `encode_talker_alias_lcs` accepts. -/
def IsAlias (text : List UInt8) : Prop := text ≠ [] ∧ text.length ≤ maxAliasChars ∧ ∀ ch ∈ text, ch < 128

instance (text : List UInt8) : Decidable (IsAlias text) := inferInstanceAs (Decidable (_ ∧ _))

/-- The LC bodies before they become bits. -/
def talkerAliasBodies (text : List UInt8) : List (Bytes 9) :=
  if IsAlias text then
    encodeHeaderBytes (UInt8.ofNat text.length) (text.take 7) ::
      List.zipWith encodeBlockBytes [0x05, 0x06, 0x07] (aliasChunks (text.drop 7))
  else []

theorem encodeTalkerAliasLcs_eq (text : List UInt8) :
    encodeTalkerAliasLcs text = (talkerAliasBodies text).map bytesToBits := by
  unfold encodeTalkerAliasLcs talkerAliasBodies
  by_cases h : IsAlias text
  · obtain ⟨hne, hlen, hascii⟩ := h
    have hdrop : text.drop (min 7 text.length) = text.drop 7 := by
      rcases Nat.le_total 7 text.length with hle | hle
      · rw [Nat.min_eq_left hle]
      · rw [Nat.min_eq_right hle, List.drop_eq_nil_of_le hle, List.drop_eq_nil_of_le (Nat.le_refl _)]
    rw [if_pos (show IsAlias text from ⟨hne, hlen, hascii⟩), if_neg]
    · simp [hdrop, List.map_zipWith]
    · simp only [Bool.or_eq_true, List.isEmpty_iff, decide_eq_true_eq, Bool.not_eq_true', List.all_eq_false]
      rintro ((h | h) | ⟨ch, hch, h⟩)
      · exact hne h
      · omega
      · exact h (hascii ch hch)
  · rw [if_neg h, if_pos]
    · rfl
    · simp only [Bool.or_eq_true, List.isEmpty_iff, decide_eq_true_eq, Bool.not_eq_true', List.all_eq_false]
      by_contra hno
      refine h ⟨fun hnil => hno (.inl (.inl hnil)), ?_, fun ch hch => ?_⟩
      · by_contra hlen
        exact hno (.inl (.inr (by omega)))
      · by_contra hge
        exact hno (.inr ⟨ch, hch, hge⟩)

/-! ## TA_Data -/

def charBits (chars : List UInt8) : List Bool := chars.flatMap fun ch => msbBits 7 ch.toNat

theorem masked_char {ch : UInt8} (h : ch < 128) : (ch &&& 0x7F).toUInt64.toNat = ch.toNat := by
  have hlt : ch.toNat < 2 ^ 7 := UInt8.lt_iff_toNat_lt.mp h
  have hmask : (0x7F : UInt8).toNat = 2 ^ 7 - 1 := rfl
  rw [UInt8.toNat_toUInt64, UInt8.toNat_and, hmask, Nat.and_two_pow_sub_one_eq_mod, Nat.mod_eq_of_lt hlt]

theorem msbBits_foldl_chars (chars : List UInt8) (hascii : ∀ ch ∈ chars, ch < 128) (hlen : 7 * chars.length ≤ 64) :
    msbBits (7 * chars.length)
      (chars.foldl (fun (data : UInt64) ch => data <<< 7 ||| (ch &&& 0x7F).toUInt64) 0).toNat = charBits chars := by
  induction chars using List.reverseRecOn with
  | nil => rfl
  | append_singleton chars ch ih =>
    rw [List.length_append, List.length_singleton] at hlen
    have hch := hascii ch (by simp)
    have hlt : ch.toNat < 2 ^ 7 := UInt8.lt_iff_toNat_lt.mp hch
    have hinit := ih (fun c hc => hascii c (List.mem_append_left _ hc)) (by omega)
    rw [List.foldl_append, List.foldl_cons, List.foldl_nil, List.length_append, List.length_singleton]
    generalize chars.foldl (fun (data : UInt64) ch => data <<< 7 ||| (ch &&& 0x7F).toUInt64) 0 = data at hinit ⊢
    have hnat : (data <<< 7 ||| (ch &&& 0x7F).toUInt64).toNat = (data.toNat <<< 7 ||| ch.toNat) % 2 ^ 64 := by
      rw [UInt64.toNat_or, UInt64.toNat_shiftLeft, masked_char hch, Nat.or_mod_two_pow,
        Nat.mod_eq_of_lt (a := ch.toNat) (by omega)]
      rfl
    rw [hnat, msbBits_mod_two_pow (by omega), Nat.mul_add, Nat.mul_one, msbBits_shiftLeft_or _ _ _ _ hlt, hinit]
    simp [charBits]

theorem msbBits_packCharsMsbFirst (chars : List UInt8) (fieldBits : Nat) (hascii : ∀ ch ∈ chars, ch < 128)
    (hlen : 7 * chars.length ≤ fieldBits) (hfield : fieldBits ≤ 56) :
    msbBits fieldBits (packCharsMsbFirst chars fieldBits).toNat =
      charBits chars ++ List.replicate (fieldBits - 7 * chars.length) false := by
  unfold packCharsMsbFirst
  dsimp only
  have hchars := msbBits_foldl_chars chars hascii (by omega)
  have hshift : (UInt64.ofNat (fieldBits - 7 * chars.length)).toNat % 64 = fieldBits - 7 * chars.length := by
    rw [UInt64.toNat_ofNat', Nat.mod_eq_of_lt (by omega), Nat.mod_eq_of_lt (by omega)]
  rw [UInt64.toNat_shiftLeft, hshift, msbBits_mod_two_pow (by omega)]
  conv_lhs => rw [show fieldBits = 7 * chars.length + (fieldBits - 7 * chars.length) by omega]
  rw [Nat.add_sub_cancel_left, msbBits_shiftLeft, hchars]

theorem bodyBits_append {n : Nat} (hn : 0 < n) (head : Bytes n) (data : UInt64) (f : Fin (9 - n) → UInt8)
    (hf : ∀ i, f i = ((data >>> UInt64.ofNat ((9 - n - 1 - i.val) * 8)) &&& 0xFF).toUInt8) :
    (head.toList ++ List.ofFn f).flatMap (fun b => msbBits 8 b.toNat) =
      head.toList.flatMap (fun b => msbBits 8 b.toNat) ++ msbBits ((9 - n) * 8) data.toNat := by
  have hbyte (i : Fin (9 - n)) : msbBits 8 (f i).toNat = msbBits 8 (data.toNat >>> ((9 - n - 1 - i.val) * 8)) := by
    have hmask : (0xFF : UInt64).toNat = 2 ^ 8 - 1 := rfl
    have hshift : (UInt64.ofNat ((9 - n - 1 - i.val) * 8)).toNat % 64 = (9 - n - 1 - i.val) * 8 := by
      rw [UInt64.toNat_ofNat']
      omega
    rw [hf, UInt64.toNat_toUInt8, UInt64.toNat_and, hmask, Nat.and_two_pow_sub_one_eq_mod,
      msbBits_mod_two_pow (Nat.le_refl 8), msbBits_mod_two_pow (Nat.le_refl 8), UInt64.toNat_shiftRight, hshift]
  have hfields : (List.ofFn f).flatMap (fun b => msbBits 8 b.toNat) =
      (List.range (9 - n)).flatMap fun i => msbBits 8 (data.toNat >>> ((9 - n - 1 - i) * 8)) := by
    rw [List.ofFn_eq_map, List.flatMap_map, ← List.map_coe_finRange_eq_range, List.flatMap_map]
    exact List.flatMap_congr fun i _ => hbyte i
  rw [List.flatMap_append, hfields, ← msbBits_mul]

theorem bodyBits_encodeBlockBytes (flco : UInt8) (chunk : List UInt8) :
    bodyBits (encodeBlockBytes flco chunk) =
      msbBits 8 flco.toNat ++ msbBits 8 0 ++ msbBits 56 (packCharsMsbFirst chunk 56).toNat := by
  have hfields := bodyBits_append (n := 2) (by decide) #v[flco, 0x00] (packCharsMsbFirst chunk 56)
    (fun i => ((packCharsMsbFirst chunk 56 >>> UInt64.ofNat (48 - i.val * 8)) &&& 0xFF).toUInt8) fun i => by
      rw [show (9 - 2 - 1 - i.val) * 8 = 48 - i.val * 8 by omega]
  have hhead : (#v[flco, 0x00] : Bytes 2).toList.flatMap (fun b => msbBits 8 b.toNat) =
      msbBits 8 flco.toNat ++ msbBits 8 0 := by
    simp
  unfold bodyBits encodeBlockBytes
  dsimp only
  rw [Vector.toList_append, Vector.toList_ofFn, hfields, hhead]

/-- TA_Format, TA_Length and the first bit of TA_Data. -/
theorem msbBits_lengthByte (total : UInt8) (htotal : total < 32) (data : UInt64) :
    msbBits 8 ((total <<< 1) ||| ((data >>> 48) &&& 1).toUInt8).toNat =
      msbBits 2 0 ++ msbBits 5 total.toNat ++ msbBits 1 (data.toNat >>> 48) := by
  have hlt : total.toNat < 32 := UInt8.lt_iff_toNat_lt.mp htotal
  have hlength : (total <<< 1).toNat = total.toNat <<< 1 := by
    rw [UInt8.toNat_shiftLeft]
    apply Nat.mod_eq_of_lt
    have hone : (1 : UInt8).toNat % 8 = 1 := rfl
    rw [hone, Nat.shiftLeft_eq]
    omega
  have hbit : ((data >>> 48) &&& 1).toUInt8.toNat = (data.toNat >>> 48) % 2 ^ 1 := by
    have hone : (1 : UInt64).toNat = 2 ^ 1 - 1 := rfl
    have hshift : (48 : UInt64).toNat % 64 = 48 := rfl
    rw [UInt64.toNat_toUInt8, UInt64.toNat_and, hone, Nat.and_two_pow_sub_one_eq_mod, UInt64.toNat_shiftRight, hshift]
    omega
  have hformat : total.toNat >>> 5 = 0 := Nat.shiftRight_eq_zero _ _ hlt
  rw [UInt8.toNat_or, hlength, hbit, msbBits_shiftLeft_or 7 1 _ _ (Nat.mod_lt _ (by decide)),
    msbBits_mod_two_pow (Nat.le_refl 1), msbBits_add 2 5, hformat]

theorem bodyBits_encodeHeaderBytes (total : UInt8) (head : List UInt8) (htotal : total < 32) :
    bodyBits (encodeHeaderBytes total head) =
      msbBits 8 4 ++ msbBits 8 0 ++ (msbBits 2 0 ++ msbBits 5 total.toNat) ++
        msbBits 49 (packCharsMsbFirst head 49).toNat := by
  have hfields := bodyBits_append (n := 3) (by decide)
    #v[0x04, 0x00, (total <<< 1) ||| ((packCharsMsbFirst head 49 >>> 48) &&& 1).toUInt8]
    (packCharsMsbFirst head 49 &&& 0x0000FFFFFFFFFFFF)
    (fun i => (((packCharsMsbFirst head 49 &&& 0x0000FFFFFFFFFFFF) >>> UInt64.ofNat (40 - i.val * 8)) &&& 0xFF).toUInt8)
    fun i => by rw [show (9 - 3 - 1 - i.val) * 8 = 40 - i.val * 8 by omega]
  have hlow : msbBits ((9 - 3) * 8) (packCharsMsbFirst head 49 &&& 0x0000FFFFFFFFFFFF).toNat =
      msbBits 48 (packCharsMsbFirst head 49).toNat := by
    have hmask : (0x0000FFFFFFFFFFFF : UInt64).toNat = 2 ^ 48 - 1 := rfl
    rw [UInt64.toNat_and, hmask, Nat.and_two_pow_sub_one_eq_mod]
    exact msbBits_mod_two_pow (Nat.le_refl 48) _
  unfold bodyBits encodeHeaderBytes
  dsimp only
  rw [Vector.toList_append, Vector.toList_ofFn, hfields, hlow, msbBits_add 1 48]
  simp only [Vector.toList_mk, List.flatMap_cons, List.flatMap_nil, List.append_nil, msbBits_lengthByte total htotal,
    List.append_assoc]
  rfl

theorem taLength_encodeHeaderBytes (total : UInt8) (head : List UInt8) (htotal : total < 32) :
    taLength (encodeHeaderBytes total head) = total.toNat := by
  have hlt : total.toNat < 2 ^ 5 := UInt8.lt_iff_toNat_lt.mp htotal
  unfold taLength
  rw [bodyBits_encodeHeaderBytes total head htotal]
  simp only [List.append_assoc]
  rw [← List.append_assoc (msbBits 8 4), ← List.append_assoc (msbBits 8 4 ++ msbBits 8 0), List.drop_left' (by simp),
    List.take_left' (length_msbBits 5 _), ofMsbBits_msbBits hlt]

theorem taData_encodeHeaderBytes (total : UInt8) (head : List UInt8) (htotal : total < 32)
    (hascii : ∀ ch ∈ head, ch < 128) (hlen : head.length ≤ 7) :
    (bodyBits (encodeHeaderBytes total head)).drop 23 =
      charBits head ++ List.replicate (49 - 7 * head.length) false := by
  rw [bodyBits_encodeHeaderBytes total head htotal, List.drop_left' (by simp),
    msbBits_packCharsMsbFirst head 49 hascii (by omega) (by decide)]

theorem taData_encodeBlockBytes (flco : UInt8) (chunk : List UInt8) (hascii : ∀ ch ∈ chunk, ch < 128)
    (hlen : chunk.length ≤ 8) :
    (bodyBits (encodeBlockBytes flco chunk)).drop 16 =
      charBits chunk ++ List.replicate (56 - 7 * chunk.length) false := by
  rw [bodyBits_encodeBlockBytes, List.drop_left' (by simp),
    msbBits_packCharsMsbFirst chunk 56 hascii (by omega) (by decide)]

/-! ## Chunks -/

theorem charBits_append (xs ys : List UInt8) : charBits (xs ++ ys) = charBits xs ++ charBits ys := by
  simp [charBits]

/-- Full chunks, then the rest. -/
theorem aliasChunks_cases (tail : List UInt8) (hlen : tail.length ≤ 24) :
    ∃ (full : List (List UInt8)) (last : Option (List UInt8)), aliasChunks tail = full ++ last.toList ∧
      (full ++ last.toList).length ≤ 3 ∧ full.flatten ++ last.getD [] = tail ∧
      (∀ chunk ∈ full, chunk.length = 8) ∧ (∀ chunk ∈ last, chunk.length ≤ 8) := by
  have hsplit : tail.take 8 ++ ((tail.drop 8).take 8 ++ tail.drop 16) = tail := by
    rw [show tail.drop 16 = (tail.drop 8).drop 8 by rw [List.drop_drop], List.take_append_drop, List.take_append_drop]
  have hlast : (tail.drop 16).take 8 = tail.drop 16 := List.take_of_length_le (by simp; omega)
  unfold aliasChunks
  rw [hlast]
  rcases (by omega : tail.length = 0 ∨ 0 < tail.length ∧ tail.length ≤ 8 ∨ 8 < tail.length ∧ tail.length ≤ 16 ∨
    16 < tail.length) with h | h | h | h
  · obtain rfl := List.length_eq_zero_iff.mp h
    exact ⟨[], none, rfl, by simp, rfl, by simp, by simp⟩
  · have hB : tail.drop 8 = [] := List.drop_eq_nil_of_le h.2
    have hC : tail.drop 16 = [] := List.drop_eq_nil_of_le (by omega)
    have hA : tail.take 8 = tail := List.take_of_length_le h.2
    have hne : tail ≠ [] := List.ne_nil_of_length_pos h.1
    exact ⟨[], some tail, by simp [hA, hB, hC, hne], by simp, by simp, by simp, by simpa using h.2⟩
  · have hC : tail.drop 16 = [] := List.drop_eq_nil_of_le h.2
    have hB : (tail.drop 8).take 8 = tail.drop 8 := List.take_of_length_le (by simp; omega)
    rw [hB, hC] at hsplit ⊢
    refine ⟨[tail.take 8], some (tail.drop 8), ?_, by simp, by simp, by simp; omega, by simp; omega⟩
    have hA : tail ≠ [] := List.ne_nil_of_length_pos (by omega)
    simp [hA, Nat.not_le.mpr h.1]
  · refine ⟨[tail.take 8, (tail.drop 8).take 8], some (tail.drop 16), ?_, by simp, by simpa using hsplit, ?_, ?_⟩
    · have hA : tail ≠ [] := List.ne_nil_of_length_pos (by omega)
      simp [hA, Nat.not_le.mpr (show 8 < tail.length by omega), Nat.not_le.mpr h]
    · simp
      omega
    · simp
      omega

/-- Only the last chunk can be short, so that no padding stands between characters. -/
theorem taData_blocks (flcos : List UInt8) (full : List (List UInt8)) (last : Option (List UInt8))
    (hflcos : (full ++ last.toList).length ≤ flcos.length) (hfull : ∀ chunk ∈ full, chunk.length = 8)
    (hlast : ∀ chunk ∈ last, chunk.length ≤ 8) (hascii : ∀ ch ∈ full.flatten ++ last.getD [], ch < 128) :
    ∃ n, (List.zipWith encodeBlockBytes flcos (full ++ last.toList)).flatMap (fun block => (bodyBits block).drop 16) =
      charBits (full.flatten ++ last.getD []) ++ List.replicate n false := by
  induction full generalizing flcos with
  | nil =>
    cases last with
    | none => exact ⟨0, by simp [charBits]⟩
    | some chunk =>
      cases flcos with
      | nil => simp at hflcos
      | cons flco flcos =>
        have hblock := taData_encodeBlockBytes flco chunk (by simpa using hascii) (hlast chunk rfl)
        exact ⟨56 - 7 * chunk.length, by simp [hblock]⟩
  | cons chunk full ih =>
    cases flcos with
    | nil => simp at hflcos
    | cons flco flcos =>
      have hlen := hfull chunk List.mem_cons_self
      obtain ⟨n, hn⟩ := ih flcos (by simpa using hflcos) (fun c hc => hfull c (List.mem_cons_of_mem chunk hc))
        fun ch hch => hascii ch (by simp only [List.flatten_cons, List.append_assoc]; exact List.mem_append_right _ hch)
      have hblock := taData_encodeBlockBytes flco chunk (fun ch hch => hascii ch (by simp [hch])) (by omega)
      rw [hlen, Nat.sub_self, List.replicate_zero, List.append_nil] at hblock
      exact ⟨n, by simp [hblock, hn, charBits_append]⟩

theorem total_toNat {text : List UInt8} (h : text.length ≤ 31) :
    (UInt8.ofNat text.length).toNat = text.length ∧ UInt8.ofNat text.length < 32 := by
  have htotal : (UInt8.ofNat text.length).toNat = text.length := by
    rw [UInt8.toNat_ofNat']
    omega
  refine ⟨htotal, ?_⟩
  rw [UInt8.lt_iff_toNat_lt, htotal]
  exact Nat.lt_succ_of_le h

theorem taData_talkerAliasBodies {text : List UInt8} (h : IsAlias text) :
    ∃ rest, taData (talkerAliasBodies text) = charBits text ++ rest := by
  obtain ⟨hne, hlen, hascii⟩ := h
  change text.length ≤ 31 at hlen
  obtain ⟨-, htotal⟩ := total_toNat hlen
  obtain ⟨full, last, hchunks, hcount, htail, hfull, hlast⟩ := aliasChunks_cases (text.drop 7) (by simp; omega)
  have hheader := taData_encodeHeaderBytes (UInt8.ofNat text.length) (text.take 7) htotal
    (fun ch hch => hascii ch (List.mem_of_mem_take hch)) (by simp)
  obtain ⟨n, hblocks⟩ := taData_blocks [0x05, 0x06, 0x07] full last hcount hfull hlast
    (by rw [htail]; exact fun ch hch => hascii ch (List.mem_of_mem_drop hch))
  rw [talkerAliasBodies, if_pos ⟨hne, hlen, hascii⟩, taData, hheader, hchunks, hblocks, htail]
  rcases Nat.le_total 7 text.length with hlong | hshort
  · have hpad : 49 - 7 * (text.take 7).length = 0 := by
      rw [List.length_take_of_le hlong]
    refine ⟨List.replicate n false, ?_⟩
    rw [hpad, List.replicate_zero, List.append_nil, ← List.append_assoc, ← charBits_append, List.take_append_drop]
  · rw [List.take_of_length_le hshort, List.append_assoc]
    exact ⟨_, rfl⟩

theorem readTalkerAlias_talkerAliasBodies {text : List UInt8} (h : IsAlias text) :
    readTalkerAlias (talkerAliasBodies text) = text := by
  obtain ⟨rest, hdata⟩ := taData_talkerAliasBodies h
  obtain ⟨hne, hlen, hascii⟩ := h
  change text.length ≤ 31 at hlen
  obtain ⟨htotal, htotalLt⟩ := total_toNat hlen
  have hfields := readFields_flatMap (w := 7) (text.map UInt8.toNat)
    (List.forall_mem_map.mpr fun ch hch => UInt8.lt_iff_toNat_lt.mp (hascii ch hch)) rest
  rw [List.length_map, List.flatMap_map] at hfields
  rw [talkerAliasBodies, if_pos ⟨hne, hlen, hascii⟩] at hdata ⊢
  rw [readTalkerAlias, taLength_encodeHeaderBytes _ _ htotalLt, htotal, hdata, charBits, hfields, List.map_map]
  exact (List.map_congr_left fun ch _ => UInt8.ofNat_toNat).trans (List.map_id text)

def flco (body : Bytes 9) : UInt8 := body.toList.headD 0

theorem talkerAliasBodies_flco (text : List UInt8) :
    (talkerAliasBodies text).map flco = [0x04, 0x05, 0x06, 0x07].take (talkerAliasBodies text).length := by
  have hblocks (codes : List UInt8) (chunks : List (List UInt8)) :
      (List.zipWith encodeBlockBytes codes chunks).map flco = codes.take (min codes.length chunks.length) := by
    induction codes generalizing chunks with
    | nil => simp
    | cons code codes ih =>
      cases chunks with
      | nil => simp
      | cons chunk chunks =>
        have hflco : flco (encodeBlockBytes code chunk) = code := rfl
        simp [ih, hflco, Nat.add_min_add_right]
  unfold talkerAliasBodies
  split
  · have hflco (total : UInt8) (head : List UInt8) : flco (encodeHeaderBytes total head) = 0x04 := rfl
    simp [hblocks, hflco]
  · rfl

end DmrBridge
