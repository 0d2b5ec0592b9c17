import Mathlib.Algebra.BigOperators.Group.List.Basic
import Mathlib.Algebra.Ring.Nat
import Mathlib.Logic.Function.Basic

/-!
# Counters that others read

Counters that one thread adds to, one at a time, and another reads, one at a time. A reading is not a
snapshot, but it never goes back and is never ahead.
-/

namespace Counters

variable {C : Type}

/-- What a thread has read of each counter last, and the counters it reads next. -/
structure Reading (C : Type) where
  read : C → Nat
  todo : List C

/-- The next counters to read, once the last are done. -/
def Reading.start (counters : List C) (r : Reading C) : Reading C :=
  if r.todo.isEmpty then { r with todo := counters } else r

@[simp]
theorem Reading.start_read (counters : List C) (r : Reading C) : (r.start counters).read = r.read := by
  unfold Reading.start
  split <;> rfl

theorem Reading.start_todo {counters : List C} {r : Reading C} (h : r.todo = []) :
    (r.start counters).todo = counters := by
  rw [Reading.start, h]
  rfl

theorem Reading.start_of_ne {counters : List C} {r : Reading C} (h : r.todo ≠ []) : r.start counters = r := by
  rw [Reading.start, if_neg (by simpa using h)]

/-- The counters to read that were read in this round have been since it began, if the counters stay as they are. -/
def Reading.Covers (m : C → Nat) (counters : List C) (r : Reading C) : Prop :=
  ∀ c ∈ counters, c ∉ r.todo → r.read c = m c

theorem Reading.covers_start {m : C → Nat} {counters : List C} {r : Reading C} (h : r.todo = []) :
    (r.start counters).Covers m counters := by
  intro c hc hnot
  rw [start_todo h] at hnot
  exact absurd hc hnot

variable [DecidableEq C]

def fetchAdd (m : C → Nat) (a : C × Nat) : C → Nat := Function.update m a.1 (m a.1 + a.2)

/-- What adds still to come bring to a counter. -/
def owed (adds : List (C × Nat)) (c : C) : Nat := (adds.map fun a => if a.1 = c then a.2 else 0).sum

theorem le_fetchAdd (m : C → Nat) (a : C × Nat) (c : C) : m c ≤ fetchAdd m a c := by
  unfold fetchAdd
  by_cases h : c = a.1
  · rw [h, Function.update_self]
    exact Nat.le_add_right _ _
  · exact Nat.le_of_eq (Function.update_of_ne h _ _).symm

/-- An add moves its part from what is owed into the counter. -/
theorem fetchAdd_owed (m : C → Nat) (a : C × Nat) (adds : List (C × Nat)) (c : C) :
    fetchAdd m a c + owed adds c = m c + owed (a :: adds) c := by
  unfold fetchAdd owed
  rw [List.map_cons, List.sum_cons]
  by_cases h : c = a.1
  · rw [h, Function.update_self, if_pos rfl, Nat.add_assoc]
  · rw [Function.update_of_ne h, if_neg (Ne.symm h), Nat.zero_add]

namespace Reading

def load (m : C → Nat) (r : Reading C) : Reading C :=
  match r.todo with
  | [] => r
  | c :: todo => ⟨Function.update r.read c (m c), todo⟩

@[simp]
theorem load_todo (m : C → Nat) (r : Reading C) : (r.load m).todo = r.todo.tail := by
  unfold load
  split <;> simp [*]

theorem load_read_of_notMem {m : C → Nat} {r : Reading C} {c : C} (h : c ∉ r.todo) : (r.load m).read c = r.read c := by
  unfold load
  split
  · rfl
  · rename_i d todo htodo
    rw [htodo, List.mem_cons, not_or] at h
    exact Function.update_of_ne h.1 _ _

theorem le_load {m : C → Nat} {r : Reading C} (h : ∀ c, r.read c ≤ m c) (c : C) : r.read c ≤ (r.load m).read c := by
  unfold load
  cases r.todo with
  | nil => exact Nat.le_refl _
  | cons d todo =>
    dsimp only
    by_cases hc : c = d
    · rw [hc, Function.update_self]
      exact h d
    · exact Nat.le_of_eq (Function.update_of_ne hc _ _).symm

theorem load_le {m : C → Nat} {r : Reading C} (h : ∀ c, r.read c ≤ m c) (c : C) : (r.load m).read c ≤ m c := by
  unfold load
  cases r.todo with
  | nil => exact h c
  | cons d todo =>
    dsimp only
    by_cases hc : c = d
    · rw [hc]
      exact Nat.le_of_eq (Function.update_self _ _ _)
    · rw [Function.update_of_ne hc]
      exact h c

theorem covers_load {m : C → Nat} {counters : List C} {r : Reading C} (h : r.Covers m counters) :
    (r.load m).Covers m counters := by
  intro c hc hnot
  unfold load at hnot ⊢
  split at hnot
  · rename_i htodo
    exact h c hc (htodo ▸ List.not_mem_nil)
  · rename_i d todo htodo
    dsimp only at hnot ⊢
    by_cases hcd : c = d
    · rw [hcd, Function.update_self]
    · rw [Function.update_of_ne hcd]
      apply h c hc
      rw [htodo, List.mem_cons, not_or]
      exact ⟨hcd, hnot⟩

end Reading

end Counters
