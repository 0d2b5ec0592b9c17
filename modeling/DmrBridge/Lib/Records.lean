import Mathlib.Tactic.Ring

/-!
# Records of one width

A list written as one piece of `w` elements for each of its items, and the piece of item `i` read back.
-/

namespace Records

variable {α β : Type} {f : α → List β} {w : Nat}

theorem length_flatMap (hw : ∀ a, (f a).length = w) (l : List α) : (l.flatMap f).length = l.length * w := by
  induction l with
  | nil => simp
  | cons a l ih =>
    rw [List.flatMap_cons, List.length_append, hw, ih, List.length_cons]
    ring

theorem take_drop_flatMap (hw : ∀ a, (f a).length = w) (l : List α) (rest : List β) {i : Nat} (h : i < l.length) :
    ((l.flatMap f ++ rest).drop (i * w)).take w = f l[i] := by
  induction l generalizing i with
  | nil => cases h
  | cons a l ih =>
    rw [List.flatMap_cons, List.append_assoc]
    cases i with
    | zero =>
      rw [Nat.zero_mul, List.drop_zero, List.take_left' (hw a)]
      rfl
    | succ i =>
      have hskip : (i + 1) * w = (f a).length + i * w := by
        rw [hw]
        ring
      rw [hskip, List.drop_length_add_append]
      exact ih (Nat.lt_of_succ_lt_succ h)

end Records
