import Mathlib.Data.List.Nodup
import Mathlib.Logic.Function.Iterate

/-!
# Passes over the blocks of a state

A pass reads each block, decodes it and writes the result back. Writing one block leaves the others
alone, so every block is decoded as it stood at the start.
-/

structure Blocks (S I B R : Type) where
  read : S → I → B
  write : S → I → R → S
  value : R → B
  read_write : ∀ s i r, read (write s i r) i = value r
  read_write_ne : ∀ s i r j, j ≠ i → read (write s i r) j = read s j

namespace Blocks

variable {S I B R : Type} (L : Blocks S I B R)

def writeAll (result : I → R) (l : List I) (s : S) : S := l.foldl (fun s i => L.write s i (result i)) s

theorem read_writeAll_of_notMem (result : I → R) {l : List I} {j : I} (hj : j ∉ l) (s : S) :
    L.read (L.writeAll result l s) j = L.read s j := by
  induction l generalizing s with
  | nil => rfl
  | cons i l ih =>
    have hne : j ≠ i := fun h => hj (h ▸ List.mem_cons_self)
    have hrest : j ∉ l := fun h => hj (List.mem_cons_of_mem i h)
    calc L.read (L.writeAll result (i :: l) s) j
        = L.read (L.writeAll result l (L.write s i (result i))) j := rfl
      _ = L.read (L.write s i (result i)) j := ih hrest _
      _ = L.read s j := L.read_write_ne s i (result i) j hne

theorem read_writeAll_of_mem (result : I → R) {l : List I} (hl : l.Nodup) {j : I} (hj : j ∈ l) (s : S) :
    L.read (L.writeAll result l s) j = L.value (result j) := by
  induction l generalizing s with
  | nil => exact absurd hj List.not_mem_nil
  | cons i l ih =>
    rw [List.nodup_cons] at hl
    rcases List.mem_cons.mp hj with rfl | hj
    · exact (L.read_writeAll_of_notMem result hl.1 _).trans (L.read_write s j (result j))
    · exact ih hl.2 hj _

/-- What no write touches is as it was. -/
theorem view_writeAll {V : Type} (view : S → V) (hview : ∀ s i r, view (L.write s i r) = view s) (result : I → R)
    (l : List I) (s : S) : view (L.writeAll result l s) = view s := by
  induction l generalizing s with
  | nil => rfl
  | cons i l ih => exact (ih _).trans (hview s i (result i))

/-- A counter that steps at some of the writes. -/
theorem count_writeAll {V : Type} (view : S → V) (bump : V → V) (hit : R → Bool)
    (hview : ∀ s i r, view (L.write s i r) = if hit r then bump (view s) else view s) (result : I → R) (l : List I)
    (s : S) : view (L.writeAll result l s) = bump^[l.countP fun i => hit (result i)] (view s) := by
  induction l generalizing s with
  | nil => rfl
  | cons i l ih =>
    have hrest := ih (L.write s i (result i))
    rw [hview] at hrest
    rw [List.countP_cons]
    unfold writeAll at hrest ⊢
    rw [List.foldl_cons, hrest]
    split <;> rfl

variable {M : Type → Type} [Monad M] [LawfulMonad M]

def step (decode : B → M R) (s : S) (i : I) : M S := do
  let r ← decode (L.read s i)
  return L.write s i r

/-- The pass of a loop over distinct blocks, when all of them decode. -/
theorem foldlM_step (decode : B → M R) {l : List I} (hl : l.Nodup) {s : S} (result : I → R)
    (hdecode : ∀ i ∈ l, decode (L.read s i) = pure (result i)) :
    l.foldlM (L.step decode) s = pure (L.writeAll result l s) := by
  induction l generalizing s with
  | nil => rfl
  | cons i l ih =>
    rw [List.nodup_cons] at hl
    have hrest (j : I) (hj : j ∈ l) : decode (L.read (L.write s i (result i)) j) = pure (result j) := by
      have hne : j ≠ i := fun h => hl.1 (h ▸ hj)
      rw [L.read_write_ne _ _ _ _ hne]
      exact hdecode j (List.mem_cons_of_mem i hj)
    rw [List.foldlM_cons]
    unfold step at ih ⊢
    rw [hdecode i List.mem_cons_self, pure_bind, pure_bind, ih hl.2 hrest]
    rfl

/-- One block that does not decode fails the pass. -/
theorem foldlM_step_error {E : Type} (decode : B → Except E R) {l : List I} (hl : l.Nodup) {s : S} {i : I} (hi : i ∈ l)
    {e : E} (herror : decode (L.read s i) = .error e)
    (hdecode : ∀ j ∈ l, j ≠ i → ∃ r, decode (L.read s j) = .ok r) : l.foldlM (L.step decode) s = .error e := by
  induction l generalizing s with
  | nil => exact absurd hi List.not_mem_nil
  | cons j l ih =>
    rw [List.nodup_cons] at hl
    rw [List.foldlM_cons]
    unfold step at ih ⊢
    by_cases hji : j = i
    · subst hji
      rw [herror]
      rfl
    · obtain ⟨r, hr⟩ := hdecode j List.mem_cons_self hji
      have hi' : i ∈ l := (List.mem_cons.mp hi).resolve_left (Ne.symm hji)
      have hread (k : I) (hk : k ∈ l) : L.read (L.write s j r) k = L.read s k :=
        L.read_write_ne s j r k fun h => hl.1 (h ▸ hk)
      rw [hr]
      refine ih hl.2 hi' ?_ ?_
      · rw [hread i hi', herror]
      · intro k hk hki
        rw [hread k hk]
        exact hdecode k (List.mem_cons_of_mem j hk) hki

theorem foldl_step (decode : B → R) {l : List I} (hl : l.Nodup) (s : S) :
    l.foldl (fun s i => L.write s i (decode (L.read s i))) s = L.writeAll (fun i => decode (L.read s i)) l s := by
  have h := L.foldlM_step (M := Id) decode hl (s := s) (fun i => decode (L.read s i)) fun _ _ => rfl
  rw [List.foldl_eq_foldlM]
  exact h

end Blocks

/-! ## Writes to a vector -/

def setAt {α : Type} {n : Nat} (v : Vector α n) (p : Fin n) (x : α) : Vector α n := v.set p.val x p.isLt

theorem get_setAt {α : Type} {n : Nat} (v : Vector α n) (i j : Fin n) (x : α) :
    (setAt v i x).get j = if j = i then x else v.get j := by
  show (v.set i.val x)[j.val] = if j = i then x else v[j.val]
  rw [Vector.getElem_set]
  by_cases h : i.val = j.val
  · rw [if_pos h, if_pos (Fin.ext h.symm)]
  · rw [if_neg h, if_neg fun hji => h (congrArg Fin.val hji).symm]

/-- When every write puts an entry of `source` in its own place, what is written agrees with `source`. -/
theorem get_foldl_setAt {α I : Type} {n : Nat} (source : Vector α n) (pos : I → Fin n) (entry : I → α) {writes : List I}
    (hentry : ∀ w ∈ writes, entry w = source.get (pos w)) {p : Fin n} (v : Vector α n)
    (hp : p ∈ writes.map pos ∨ v.get p = source.get p) :
    (writes.foldl (fun v w => setAt v (pos w) (entry w)) v).get p = source.get p := by
  induction writes generalizing v with
  | nil =>
    rcases hp with hp | hp
    · exact absurd hp List.not_mem_nil
    · exact hp
  | cons w writes ih =>
    rw [List.foldl_cons]
    apply ih fun u hu => hentry u (List.mem_cons_of_mem w hu)
    rw [get_setAt]
    by_cases hpw : p = pos w
    · subst hpw
      exact .inr ((if_pos rfl).trans (hentry w List.mem_cons_self))
    · rw [if_neg hpw]
      rcases hp with hp | hp
      · exact .inl ((List.mem_cons.mp hp).resolve_left hpw)
      · exact .inr hp
