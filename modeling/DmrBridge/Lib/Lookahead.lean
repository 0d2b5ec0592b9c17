import DmrBridge.Lib.Recent

/-!
# A line with lookahead

Items wait until two more have come, and are then seen with the two before and the two after them.
Past the left edge the oldest item stands for those before it.
-/

open Recent

namespace Lookahead

variable {α : Type}

structure Window (α : Type) where
  past2 : α
  past1 : α
  target : α
  future1 : α
  future2 : α
  deriving DecidableEq

structure Line (α : Type) where
  pending : List α
  /-- The last two that left `pending`, oldest first. -/
  history : List α
  deriving DecidableEq

namespace Line

def push (l : Line α) (x : α) : Line α := { l with pending := l.pending ++ [x] }

def window (l : Line α) : Option (Window α) :=
  match l.pending with
  | target :: future1 :: future2 :: _ =>
    some { past2 := l.history.head?.getD target, past1 := l.history.getLast?.getD target, target, future1, future2 }
  | _ => none

def shift (l : Line α) : Line α :=
  match l.pending with
  | [] => l
  | target :: rest =>
    let history := l.history ++ [target]
    { pending := rest, history := if 2 < history.length then history.tail else history }

end Line

/-- The window around item `d`. -/
def windowAt (items : List α) (d : Nat) : Option (Window α) := do
  return { past2 := ← items[d - 2]?, past1 := ← items[d - 1]?, target := ← items[d]?,
           future1 := ← items[d + 1]?, future2 := ← items[d + 2]? }

/-- The line when the first `d` items have left it. -/
def lineAt (items : List α) (d : Nat) : Line α := { pending := items.drop d, history := recent 2 (items.take d) }

theorem recent_two_snoc (items : List α) (x : α) :
    recent 2 (items ++ [x]) =
      if 2 < (recent 2 items ++ [x]).length then (recent 2 items ++ [x]).tail else recent 2 items ++ [x] := by
  have hshort := length_recent 2 items
  rw [← recent_recent_append]
  split
  · rename_i hover
    rw [List.length_append, List.length_singleton] at hover
    unfold recent at hshort hover ⊢
    rw [List.length_append, List.length_singleton, ← List.drop_one]
    congr 1
    omega
  · rename_i hfits
    exact recent_of_length_le (Nat.le_of_not_lt hfits)

theorem push_lineAt (items : List α) {d : Nat} (h : d ≤ items.length) (x : α) :
    (lineAt items d).push x = lineAt (items ++ [x]) d := by
  unfold Line.push lineAt
  rw [List.drop_append_of_le_length h, List.take_append_of_le_length h]

theorem shift_lineAt (items : List α) {d : Nat} (h : d < items.length) :
    (lineAt items d).shift = lineAt items (d + 1) := by
  unfold Line.shift lineAt
  rw [List.drop_eq_getElem_cons h, List.take_succ_eq_append_getElem h, recent_two_snoc]

theorem head?_recent (items : List α) (d : Nat) {x : α} (hx : items[d]? = some x) :
    some ((recent 2 (items.take d)).head?.getD x) = items[d - 2]? := by
  obtain ⟨hd, -⟩ := List.getElem?_eq_some_iff.mp hx
  unfold recent
  rw [List.head?_drop, List.length_take_of_le (Nat.le_of_lt hd)]
  cases d with
  | zero => exact hx.symm
  | succ d =>
    rw [List.getElem?_take_of_lt (by omega), List.getElem?_eq_getElem (by omega)]
    rfl

theorem getLast?_recent (items : List α) (d : Nat) {x : α} (hx : items[d]? = some x) :
    some ((recent 2 (items.take d)).getLast?.getD x) = items[d - 1]? := by
  obtain ⟨hd, -⟩ := List.getElem?_eq_some_iff.mp hx
  unfold recent
  rw [List.getLast?_drop, List.length_take_of_le (Nat.le_of_lt hd)]
  cases d with
  | zero => exact hx.symm
  | succ d =>
    rw [if_neg (by omega), List.getLast?_eq_getElem?, List.length_take_of_le (Nat.le_of_lt hd),
      List.getElem?_take_of_lt (by omega), List.getElem?_eq_getElem (by omega)]
    rfl

/-- With two items after the target the window is there, and it is the one around the target. -/
theorem window_lineAt (items : List α) {d : Nat} (h : d + 2 < items.length) :
    (lineAt items d).window = windowAt items d := by
  have htarget : items[d]? = some items[d] := List.getElem?_eq_getElem (by omega)
  have hpending : items.drop d = items[d] :: items[d + 1] :: items[d + 2] :: items.drop (d + 3) := by
    rw [List.drop_eq_getElem_cons, List.drop_eq_getElem_cons, List.drop_eq_getElem_cons]
  unfold windowAt Line.window lineAt
  rw [hpending, ← head?_recent items d htarget, ← getLast?_recent items d htarget, htarget,
    List.getElem?_eq_getElem (by omega), List.getElem?_eq_getElem (by omega)]
  rfl

theorem window_lineAt_none (items : List α) {d : Nat} (h : items.length ≤ d + 2) : (lineAt items d).window = none := by
  have hshort : (items.drop d).length ≤ 2 := by
    rw [List.length_drop]
    omega
  unfold Line.window lineAt
  simp only
  split
  · rename_i hpending
    rw [hpending, List.length_cons, List.length_cons, List.length_cons] at hshort
    omega
  · rfl

end Lookahead
