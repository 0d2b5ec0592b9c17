import Mathlib.Data.List.Basic

/-!
# The recent part of a stream

A buffer that takes a stream in and drops from its front what is over its capacity holds the last
items of the stream, however the stream was cut into pieces.
-/

namespace Recent

variable {α : Type}

/-- The last `n` items. -/
def recent (n : Nat) (items : List α) : List α := items.drop (items.length - n)

/-- Drop from the front while there are more than `n`. -/
def trim (n : Nat) : List α → List α
  | [] => []
  | x :: rest => if n < rest.length + 1 then trim n rest else x :: rest

theorem length_recent (n : Nat) (items : List α) : (recent n items).length = min n items.length := by
  unfold recent
  rw [List.length_drop]
  omega

theorem recent_of_length_le {n : Nat} {items : List α} (h : items.length ≤ n) : recent n items = items := by
  unfold recent
  rw [Nat.sub_eq_zero_of_le h, List.drop_zero]

theorem recent_append_of_le {n : Nat} (front : List α) {items : List α} (h : n ≤ items.length) :
    recent n (front ++ items) = recent n items := by
  unfold recent
  have hskip : (front ++ items).length - n = front.length + (items.length - n) := by
    rw [List.length_append]
    omega
  rw [hskip, List.drop_length_add_append]

theorem trim_eq_recent (n : Nat) (items : List α) : trim n items = recent n items := by
  induction items with
  | nil =>
    unfold trim recent
    rw [List.drop_nil]
  | cons x rest ih =>
    unfold trim
    split
    · rename_i hover
      rw [ih, ← List.singleton_append, recent_append_of_le [x] (by omega)]
    · rename_i hfits
      rw [recent_of_length_le (by rw [List.length_cons]; omega)]

/-- What was dropped before does not matter. -/
theorem recent_recent_append (n : Nat) (items new : List α) :
    recent n (recent n items ++ new) = recent n (items ++ new) := by
  by_cases h : items.length ≤ n
  · rw [recent_of_length_le h]
  · have hkept : (recent n items).length = n := by
      rw [length_recent]
      omega
    have hsplit : items = items.take (items.length - n) ++ recent n items := (List.take_append_drop _ _).symm
    conv_rhs => rw [hsplit, List.append_assoc]
    apply (recent_append_of_le _ _).symm
    rw [List.length_append]
    omega

end Recent
