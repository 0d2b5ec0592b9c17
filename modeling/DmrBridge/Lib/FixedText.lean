import Mathlib.Algebra.Ring.Nat
import Mathlib.Data.List.Basic

/-!
# Text in fields of fixed width

A text is cut on a character boundary and padded with spaces, a number is padded with zeros. Widths
are in bytes of UTF-8.
-/

namespace FixedText

def bytes (s : String) : List UInt8 := s.toByteArray.data.toList

@[simp]
theorem bytes_append (s t : String) : bytes (s ++ t) = bytes s ++ bytes t := by
  unfold bytes
  rw [String.toByteArray_append, ByteArray.data_append, Array.toList_append]

@[simp]
theorem length_bytes (s : String) : (bytes s).length = s.utf8ByteSize := by
  unfold bytes
  rw [Array.length_toList, ByteArray.size_data, String.size_toByteArray]

theorem utf8ByteSize_ofList_ascii {l : List Char} (h : ∀ c ∈ l, c.utf8Size = 1) :
    (String.ofList l).utf8ByteSize = l.length := by
  induction l with
  | nil => rfl
  | cons c l ih =>
    have hfirst := h c List.mem_cons_self
    have hrest := ih fun d hd => h d (List.mem_cons_of_mem c hd)
    rw [← List.singleton_append, String.ofList_append, String.utf8ByteSize_append, hrest, ← String.singleton_eq_ofList,
      String.utf8ByteSize_singleton, hfirst, List.length_append, List.length_singleton]

/-! ## Cutting a text -/

def spaces (n : Nat) : String := .ofList (.replicate n ' ')

@[simp]
theorem utf8ByteSize_spaces (n : Nat) : (spaces n).utf8ByteSize = n := by
  unfold spaces
  rw [utf8ByteSize_ofList_ascii, List.length_replicate]
  intro c hc
  rw [List.eq_of_mem_replicate hc]
  rfl

/-- The longest prefix of `value` that is made of whole characters and fits, and then spaces. -/
def Fitted (value : String) (width : Nat) (text : String) : Prop :=
  ∃ kept rest, value = kept ++ rest ∧ kept.utf8ByteSize ≤ width ∧
    (∀ longer rest', value = longer ++ rest' → longer.utf8ByteSize ≤ width → longer.utf8ByteSize ≤ kept.utf8ByteSize) ∧
    text = kept ++ spaces (width - kept.utf8ByteSize)

theorem Fitted.size {value text : String} {width : Nat} (h : Fitted value width text) : text.utf8ByteSize = width := by
  obtain ⟨kept, rest, -, hfits, -, rfl⟩ := h
  rw [String.utf8ByteSize_append, utf8ByteSize_spaces]
  omega

/-- A text that fits is kept whole. -/
theorem Fitted.whole {value text : String} {width : Nat} (h : Fitted value width text)
    (hfits : value.utf8ByteSize ≤ width) :
    text = value ++ spaces (width - value.utf8ByteSize) := by
  obtain ⟨kept, rest, rfl, -, hlongest, rfl⟩ := h
  have hall := hlongest (kept ++ rest) "" String.append_empty.symm hfits
  rw [String.utf8ByteSize_append] at hall
  have hrest : rest = "" := String.utf8ByteSize_eq_zero_iff.mp (by omega)
  rw [hrest, String.append_empty]

theorem bytes_inj {s t : String} (h : bytes s = bytes t) : s = t := by
  apply String.toByteArray_inj.mp
  apply ByteArray.ext
  exact Array.toList_inj.mp h

/-- There is one text that fits. -/
theorem Fitted.unique {value text text' : String} {width : Nat} (h : Fitted value width text)
    (h' : Fitted value width text') : text = text' := by
  obtain ⟨kept, rest, rfl, hfits, hlongest, rfl⟩ := h
  obtain ⟨kept', rest', hvalue, hfits', hlongest', rfl⟩ := h'
  have hsize : kept.utf8ByteSize = kept'.utf8ByteSize :=
    Nat.le_antisymm (hlongest' kept rest rfl hfits) (hlongest kept' rest' hvalue hfits')
  have hbytes := congrArg bytes hvalue
  rw [bytes_append, bytes_append] at hbytes
  obtain ⟨hkept, -⟩ := List.append_inj hbytes (by rw [length_bytes, length_bytes, hsize])
  rw [bytes_inj hkept]

/-- The last number up to `n` with `p`. -/
def lastUpTo (p : Nat → Bool) (n : Nat) : Option Nat := (List.range (n + 1)).reverse.find? p

theorem lastUpTo_succ (p : Nat → Bool) (n : Nat) :
    lastUpTo p (n + 1) = if p (n + 1) then some (n + 1) else lastUpTo p n := by
  unfold lastUpTo
  rw [List.range_succ, List.reverse_append, List.reverse_singleton, List.singleton_append, List.find?_cons]
  cases p (n + 1) with
  | true => rfl
  | false => rfl

theorem lastUpTo_spec {p : Nat → Bool} (h : p 0) (n : Nat) :
    ∃ i, lastUpTo p n = some i ∧ p i ∧ i ≤ n ∧ ∀ j ≤ n, p j → j ≤ i := by
  induction n with
  | zero => exact ⟨0, by simp [lastUpTo, h], h, Nat.le_refl 0, fun j hj _ => hj⟩
  | succ n ih =>
    rw [lastUpTo_succ]
    by_cases hn : p (n + 1)
    · rw [if_pos hn]
      exact ⟨n + 1, rfl, hn, Nat.le_refl _, fun j hj _ => hj⟩
    · rw [if_neg hn]
      obtain ⟨i, hi, hp, hle, hlast⟩ := ih
      refine ⟨i, hi, hp, Nat.le_succ_of_le hle, ?_⟩
      intro j hj hpj
      rcases Nat.lt_or_eq_of_le hj with hj | rfl
      · exact hlast j (Nat.le_of_lt_succ hj) hpj
      · exact absurd hpj hn

theorem extract_boundary {s : String} {i : Nat} (h : (String.Pos.Raw.mk i).IsValid s) :
    ∃ rest, s = s.extract s.startPos ⟨⟨i⟩, h⟩ ++ rest ∧ (s.extract s.startPos ⟨⟨i⟩, h⟩).utf8ByteSize = i := by
  obtain ⟨front, rest, hsplit, hi⟩ := String.Pos.Raw.isValid_iff_exists_append.mp h
  have hsize : i = front.utf8ByteSize := congrArg String.Pos.Raw.byteIdx hi
  have hfront : s.extract s.startPos ⟨⟨i⟩, h⟩ = front := by
    apply String.toByteArray_inj.mp
    rw [String.toByteArray_extract]
    show s.toByteArray.extract 0 i = front.toByteArray
    rw [hsplit, String.toByteArray_append, hsize, ← String.size_toByteArray]
    exact ByteArray.extract_append_eq_left rfl
  rw [hfront]
  exact ⟨rest, hsplit, hsize.symm⟩

theorem isValid_of_append {front rest : String} : (String.Pos.Raw.mk front.utf8ByteSize).IsValid (front ++ rest) :=
  String.Pos.Raw.isValid_iff_exists_append.mpr ⟨front, rest, rfl, rfl⟩

/-- Cutting at the last boundary that fits, and padding. -/
theorem fitted_of_last {value : String} {width i : Nat} (h : (String.Pos.Raw.mk i).IsValid value) (hfits : i ≤ width)
    (hlast : ∀ j ≤ width, (String.Pos.Raw.mk j).IsValid value → j ≤ i) :
    Fitted value width (value.extract value.startPos ⟨⟨i⟩, h⟩ ++ spaces (width - i)) := by
  obtain ⟨rest, hsplit, hsize⟩ := extract_boundary h
  refine ⟨_, rest, hsplit, ?_, ?_, ?_⟩
  · rw [hsize]
    exact hfits
  · intro longer rest' hlonger hle
    rw [hsize]
    apply hlast _ hle
    rw [hlonger]
    exact isValid_of_append
  · rw [hsize]

/-! ## Numbers -/

def zeroPadded (width n : Nat) : String :=
  .ofList (.replicate (width - (Nat.toDigits 10 n).length) '0' ++ Nat.toDigits 10 n)

/-- `width` digits that spell `n`. -/
structure Decimal (width n : Nat) (text : String) : Prop where
  size : text.utf8ByteSize = width
  digits : ∀ c ∈ text.toList, c.isDigit
  value : Nat.ofDigitChars 10 text.toList 0 = n

theorem utf8Size_of_isDigit {c : Char} (h : c.isDigit) : c.utf8Size = 1 := by
  unfold Char.isDigit at h
  unfold Char.utf8Size
  simp only [Bool.and_eq_true, decide_eq_true_eq] at h
  rw [if_pos (UInt32.le_trans h.2 (by decide))]

theorem decimal_zeroPadded {width n : Nat} (hwidth : 0 < width) (h : n < 10 ^ width) :
    Decimal width n (zeroPadded width n) := by
  have hdigits : ∀ c ∈ List.replicate (width - (Nat.toDigits 10 n).length) '0' ++ Nat.toDigits 10 n, c.isDigit := by
    intro c hc
    rcases List.mem_append.mp hc with hc | hc
    · rw [List.eq_of_mem_replicate hc]
      rfl
    · exact Nat.isDigit_of_mem_toDigits (by decide) (by decide) hc
  have hlen : (Nat.toDigits 10 n).length ≤ width := (Nat.length_toDigits_le_iff (by decide) hwidth).mpr h
  unfold zeroPadded
  refine ⟨?_, ?_, ?_⟩
  · rw [utf8ByteSize_ofList_ascii fun c hc => utf8Size_of_isDigit (hdigits c hc), List.length_append,
      List.length_replicate]
    omega
  · rw [String.toList_ofList]
    exact hdigits
  · rw [String.toList_ofList, Nat.ofDigitChars_append, Nat.ofDigitChars_replicate_zero, Nat.mul_zero]
    exact Nat.ofDigitChars_ten_toDigits

/-! ## Records of fields -/

section Fields

variable {ι α : Type} [DecidableEq ι]

/-- The widths of the fields before `f`. -/
def offsetIn (width : ι → Nat) (fields : List ι) (f : ι) : Nat := ((fields.takeWhile (· ≠ f)).map width).sum

theorem slice_field {width : ι → Nat} {content : ι → List α} (hwidth : ∀ f, (content f).length = width f)
    {fields : List ι} {f : ι} (h : f ∈ fields) (front : List α) :
    ((front ++ fields.flatMap content).drop (front.length + offsetIn width fields f)).take (width f) = content f := by
  induction fields generalizing front with
  | nil => cases h
  | cons g fields ih =>
    unfold offsetIn at ih ⊢
    rw [List.flatMap_cons]
    by_cases hgf : g = f
    · rw [hgf, List.takeWhile_cons_of_neg (by simp), List.map_nil, List.sum_nil, Nat.add_zero, List.drop_left, ← hwidth,
        List.take_left]
    · have hrest := ih ((List.mem_cons.mp h).resolve_left fun hfg => hgf hfg.symm) (front ++ content g)
      rw [List.length_append, hwidth, List.append_assoc, Nat.add_assoc] at hrest
      rw [List.takeWhile_cons_of_pos (by simpa using hgf), List.map_cons, List.sum_cons]
      exact hrest

end Fields

end FixedText
