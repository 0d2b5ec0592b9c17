import Mathlib.Data.Vector.Defs
import Mathlib.Tactic.Common

/-!
# Systematic binary codes

A word is its data followed by its checks. When the parity is additive the syndrome of a word with
an error is the syndrome of the error, so the table of a decoder need only be right on errors.
-/

namespace BinaryCode

variable {n k m : Nat}

def add (a b : Vector Bool n) : Vector Bool n := a.zipWith (· ^^ ·) b

def single (pos : Nat) : Vector Bool n := .ofFn fun i => decide (i.val = pos)

/-- The errors are one bit at most. -/
def AtMostOne (e : Vector Bool n) : Prop := ∀ i j : Fin n, e.get i = true → e.get j = true → i = j

instance (e : Vector Bool n) : Decidable (AtMostOne e) :=
  inferInstanceAs (Decidable (∀ i j : Fin n, e.get i = true → e.get j = true → i = j))

def isHit (e : Vector Bool n) : Bool := e.toList.any id

/-! ## Sums -/

theorem xor_comm4 (x y u v : Bool) : (x ^^ y ^^ (u ^^ v)) = (x ^^ u ^^ (y ^^ v)) := by
  cases x <;> cases y <;> cases u <;> cases v <;> rfl

@[simp]
theorem getElem_add (a b : Vector Bool n) (i : Nat) (h : i < n) : (add a b)[i] = (a[i] ^^ b[i]) := by
  unfold add
  rw [Vector.getElem_zipWith]

@[simp]
theorem getElem_single (pos i : Nat) (h : i < n) : (single pos : Vector Bool n)[i] = decide (i = pos) := by
  unfold single
  rw [Vector.getElem_ofFn]

theorem get_add (a b : Vector Bool n) (i : Fin n) : (add a b).get i = (a.get i ^^ b.get i) :=
  getElem_add a b i.val i.isLt

theorem add_replicate_false (a : Vector Bool n) : add a (.replicate n false) = a := by
  ext1 i hi
  simp

theorem add_add_cancel (a b : Vector Bool n) : add b (add a b) = a := by
  ext1 i hi
  rw [getElem_add, getElem_add, Bool.xor_comm, Bool.xor_assoc, Bool.xor_self, Bool.xor_false]

theorem isHit_iff (e : Vector Bool n) : isHit e = true ↔ ∃ i : Fin n, e.get i = true := by
  unfold isHit
  rw [List.any_eq_true]
  constructor
  · rintro ⟨b, hb, hbit⟩
    obtain ⟨i, hi, rfl⟩ := List.getElem_of_mem hb
    exact ⟨⟨i, by simpa using hi⟩, hbit⟩
  · rintro ⟨i, hi⟩
    refine ⟨e[i.val], ?_, hi⟩
    rw [Vector.mem_toList_iff]
    exact Vector.getElem_mem i.isLt

/-- An error of one bit at most leaves the word alone or flips one of its bits. -/
theorem atMostOne_cases {e : Vector Bool n} (h : AtMostOne e) :
    (e = .replicate n false ∧ isHit e = false) ∨ ∃ pos, pos < n ∧ e = single pos ∧ isHit e = true := by
  by_cases hit : ∃ i : Fin n, e.get i = true
  · obtain ⟨i, hi⟩ := hit
    refine .inr ⟨i, i.isLt, ?_, (isHit_iff e).mpr ⟨i, hi⟩⟩
    ext1 j hj
    rw [getElem_single]
    by_cases hji : j = i.val
    · subst hji
      rw [decide_eq_true rfl]
      exact hi
    · rw [decide_eq_false hji]
      by_contra hne
      have hjt : e[j] = true := by simpa using hne
      exact hji (congrArg Fin.val (h ⟨j, hj⟩ i hjt hi))
  · refine .inl ⟨?_, ?_⟩
    · ext1 i hi
      rw [Vector.getElem_replicate]
      by_contra hne
      have hit' : e[i] = true := by simpa using hne
      exact hit ⟨⟨i, hi⟩, hit'⟩
    · rw [← Bool.not_eq_true, isHit_iff]
      exact hit

/-! ## Syndromes -/

def Additive (parity : Vector Bool k → Vector Bool m) : Prop := ∀ a b, parity (add a b) = add (parity a) (parity b)

/-- The sum of the data bits at the given positions. -/
def sumAt (positions : Fin k × List (Fin k)) (d : Vector Bool k) : Bool :=
  positions.2.foldl (fun sum p => sum ^^ d.get p) (d.get positions.1)

theorem sumAt_add (positions : Fin k × List (Fin k)) (a b : Vector Bool k) :
    sumAt positions (add a b) = (sumAt positions a ^^ sumAt positions b) := by
  have hfold (l : List (Fin k)) (x y : Bool) : l.foldl (fun sum p => sum ^^ (add a b).get p) (x ^^ y) =
      (l.foldl (fun sum p => sum ^^ a.get p) x ^^ l.foldl (fun sum p => sum ^^ b.get p) y) := by
    induction l generalizing x y with
    | nil => rfl
    | cons p l ih =>
      rw [List.foldl_cons, List.foldl_cons, List.foldl_cons, get_add, xor_comm4, ih]
  unfold sumAt
  rw [get_add, hfold]

/-- A parity whose checks are sums of data bits. -/
theorem additive_of_sums {parity : Vector Bool k → Vector Bool m} (positions : Vector (Fin k × List (Fin k)) m)
    (h : ∀ d j, (hj : j < m) → (parity d)[j] = sumAt positions[j] d) : Additive parity := by
  intro a b
  ext1 j hj
  rw [getElem_add, h _ j hj, h _ j hj, h _ j hj, sumAt_add]

def dataOf (w : Vector Bool (k + m)) : Vector Bool k := .ofFn fun i => w[i.val]

def syndrome (parity : Vector Bool k → Vector Bool m) (w : Vector Bool (k + m)) : List Bool :=
  List.zipWith (· ^^ ·) (w.toList.drop k) (parity (dataOf w)).toList

def Valid (parity : Vector Bool k → Vector Bool m) (w : Vector Bool (k + m)) : Prop :=
  ∀ j, (h : j < m) → w[k + j] = (parity (dataOf w))[j]

theorem dataOf_add (a b : Vector Bool (k + m)) : dataOf (add a b) = add (dataOf a) (dataOf b) := by
  ext1 i hi
  simp [dataOf]

theorem syndrome_eq_ofFn (parity : Vector Bool k → Vector Bool m) (w : Vector Bool (k + m)) :
    syndrome parity w = List.ofFn fun j : Fin m => (w[k + j.val] ^^ (parity (dataOf w)).get j) := by
  unfold syndrome
  apply List.ext_getElem
  · simp
  · intro j hj _
    simp [Vector.get]

theorem valid_append (parity : Vector Bool k → Vector Bool m) (d : Vector Bool k) :
    Valid parity (d ++ parity d) := by
  have hdata : dataOf (d ++ parity d) = d := by
    ext1 i hi
    simp [dataOf]
  intro j hj
  rw [hdata, Vector.getElem_append_right _ (by omega)]
  exact getElem_congr_idx (by omega)

theorem syndrome_sum {parity : Vector Bool k → Vector Bool m} (hadd : Additive parity) (a b : Vector Bool (k + m)) :
    syndrome parity (add a b) = List.zipWith (· ^^ ·) (syndrome parity a) (syndrome parity b) := by
  rw [syndrome_eq_ofFn, syndrome_eq_ofFn, syndrome_eq_ofFn, dataOf_add, hadd]
  apply List.ext_getElem
  · simp
  · intro j hj _
    simp only [List.getElem_ofFn, List.getElem_zipWith, getElem_add]
    rw [get_add, xor_comm4]

theorem syndrome_valid {parity : Vector Bool k → Vector Bool m} {c : Vector Bool (k + m)}
    (hc : Valid parity c) : syndrome parity c = List.replicate m false := by
  rw [syndrome_eq_ofFn]
  apply List.ext_getElem
  · simp
  · intro j hj _
    rw [List.length_ofFn] at hj
    rw [List.getElem_ofFn, List.getElem_replicate, hc j hj]
    exact Bool.xor_self _

/-- The syndrome of a codeword with an error is the syndrome of the error. -/
theorem syndrome_add {parity : Vector Bool k → Vector Bool m} (hadd : Additive parity) {c : Vector Bool (k + m)}
    (hc : Valid parity c) (e : Vector Bool (k + m)) : syndrome parity (add c e) = syndrome parity e := by
  rw [syndrome_sum hadd, syndrome_valid hc, syndrome_eq_ofFn]
  apply List.ext_getElem
  · simp
  · intro j hj _
    simp

end BinaryCode
