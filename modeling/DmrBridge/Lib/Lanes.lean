/-!
# Two queues into one wire

A sender that serves one queue before the other. What is on the wire and what waits, read in the
order of service, only grows at its end, unless something enters the first queue while the second
is not empty.
-/

structure Lanes (α : Type) where
  high : List α
  low : List α
  sent : List α

namespace Lanes

variable {α : Type}

def empty : Lanes α := ⟨[], [], []⟩

def pushHigh (l : Lanes α) (x : α) : Lanes α := { l with high := l.high ++ [x] }

def pushLow (l : Lanes α) (x : α) : Lanes α := { l with low := l.low ++ [x] }

def pop (l : Lanes α) : Option (Lanes α) :=
  match l.high, l.low with
  | x :: high, _ => some { l with high, sent := l.sent ++ [x] }
  | [], x :: low => some { l with low, sent := l.sent ++ [x] }
  | [], [] => none

/-- The wire once everything that waits has gone out. -/
def order (l : Lanes α) : List α := l.sent ++ l.high ++ l.low

theorem sent_prefix_order (l : Lanes α) : l.sent <+: l.order := by
  rw [order, List.append_assoc]
  exact List.prefix_append _ _

@[simp]
theorem order_pushLow (l : Lanes α) (x : α) : (l.pushLow x).order = l.order ++ [x] := by
  simp [order, pushLow]

theorem pop_cases {l l' : Lanes α} (h : l.pop = some l') :
    (l'.sent ++ l'.high = l.sent ++ l.high ∧ l'.low = l.low) ∨
      ∃ x, l.high = [] ∧ l'.high = [] ∧ l.low = x :: l'.low ∧ l'.sent = l.sent ++ [x] := by
  obtain ⟨high, low, sent⟩ := l
  unfold pop at h
  rcases high with _ | ⟨x, high⟩
  · rcases low with _ | ⟨x, low⟩
    · cases h
    · cases h
      exact .inr ⟨x, rfl, rfl, rfl, rfl⟩
  · cases h
    exact .inl ⟨by simp, rfl⟩

theorem order_pop {l l' : Lanes α} (h : l.pop = some l') : l'.order = l.order := by
  unfold order
  obtain ⟨hfront, hlow⟩ | ⟨x, hhigh, hhigh', hlow, hsent⟩ := pop_cases h
  · rw [hfront, hlow]
  · simp [hhigh, hhigh', hlow, hsent]

/-- In the eyes of `p` an item of the first queue is the last one if no other waits in the second. -/
theorem filter_order_pushHigh (p : α → Bool) (l : Lanes α) (x : α)
    (h : p x = true → ∀ y ∈ l.low, p y = false) : (l.pushHigh x).order.filter p = (l.order ++ [x]).filter p := by
  have hlow : p x = true → l.low.filter p = [] := by
    intro hx
    rw [List.filter_eq_nil_iff]
    intro y hy
    simp [h hx y hy]
  cases hx : p x with
  | false => simp [order, pushHigh, hx]
  | true => simp [order, pushHigh, hx, hlow hx]

end Lanes
