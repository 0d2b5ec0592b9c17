import Mathlib.Data.Finset.Card
import Mathlib.Data.Finset.Dedup

/-!
# Editing a set

A set is brought to a wanted one by removing and adding single elements, and any edit may fail. What
is there is listed with repetitions, and so is what is wanted.
-/

namespace SetEdits

variable {α : Type} [DecidableEq α]

inductive Edit (α : Type) where
  | remove (x : α)
  | add (x : α)
  deriving DecidableEq

def Edit.apply (s : Finset α) : Edit α → Finset α
  | .remove x => s.erase x
  | .add x => insert x s

/-- Edit number `i` takes place when `ok i`. -/
def attempt (ok : Nat → Bool) (i : Nat) (s : Finset α) (e : Edit α) : Finset α := if ok i then e.apply s else s

/-- The set after the edits, the first of them number `i`. -/
def perform (ok : Nat → Bool) : Nat → List (Edit α) → Finset α → Finset α
  | _, [], s => s
  | i, e :: edits, s => perform ok (i + 1) edits (attempt ok i s e)

/-- Each edit with the set it finds. -/
def moments (ok : Nat → Bool) : Nat → List (Edit α) → Finset α → List (Edit α × Finset α)
  | _, [], _ => []
  | i, e :: edits, s => (e, s) :: moments ok (i + 1) edits (attempt ok i s e)

/-- What is not wanted is removed, then what is missing is added. -/
def diff (current desired : List α) : List (Edit α) :=
  (current.filter (· ∉ desired)).map .remove ++ (desired.filter (· ∉ current)).map .add

theorem perform_append (ok : Nat → Bool) (i : Nat) (a b : List (Edit α)) (s : Finset α) :
    perform ok i (a ++ b) s = perform ok (i + a.length) b (perform ok i a s) := by
  induction a generalizing i s with
  | nil => rfl
  | cons e a ih =>
    rw [List.cons_append, perform, perform, ih, List.length_cons]
    congr 1
    omega

theorem moments_append (ok : Nat → Bool) (i : Nat) (a b : List (Edit α)) (s : Finset α) :
    moments ok i (a ++ b) s = moments ok i a s ++ moments ok (i + a.length) b (perform ok i a s) := by
  induction a generalizing i s with
  | nil => rfl
  | cons e a ih =>
    have hnum : i + 1 + a.length = i + (a.length + 1) := by omega
    rw [List.cons_append, moments, moments, ih, List.cons_append, perform, List.length_cons, hnum]

theorem edit_of_mem_moments {ok : Nat → Bool} {i : Nat} {edits : List (Edit α)} {s : Finset α} {m : Edit α × Finset α}
    (h : m ∈ moments ok i edits s) : m.1 ∈ edits := by
  induction edits generalizing i s with
  | nil => cases h
  | cons e edits ih =>
    rw [moments, List.mem_cons] at h
    rcases h with rfl | h
    · exact List.mem_cons_self
    · exact List.mem_cons_of_mem e (ih h)

/-! ## Without failures -/

theorem mem_perform_remove (i : Nat) (l : List α) (s : Finset α) (x : α) :
    x ∈ perform (fun _ => true) i (l.map .remove) s ↔ x ∈ s ∧ x ∉ l := by
  induction l generalizing i s with
  | nil => simp [perform]
  | cons y l ih =>
    rw [List.map_cons, perform, ih]
    simp only [attempt, Edit.apply, if_true, Finset.mem_erase, List.mem_cons, not_or]
    constructor
    · rintro ⟨⟨hy, hs⟩, hl⟩
      exact ⟨hs, hy, hl⟩
    · rintro ⟨hs, hy, hl⟩
      exact ⟨⟨hy, hs⟩, hl⟩

theorem mem_perform_add (i : Nat) (l : List α) (s : Finset α) (x : α) :
    x ∈ perform (fun _ => true) i (l.map .add) s ↔ x ∈ s ∨ x ∈ l := by
  induction l generalizing i s with
  | nil => simp [perform]
  | cons y l ih =>
    rw [List.map_cons, perform, ih]
    simp only [attempt, Edit.apply, if_true, Finset.mem_insert, List.mem_cons]
    constructor
    · rintro ((hy | hs) | hl)
      · exact .inr (.inl hy)
      · exact .inl hs
      · exact .inr (.inr hl)
    · rintro (hs | hy | hl)
      · exact .inl (.inr hs)
      · exact .inl (.inl hy)
      · exact .inr hl

theorem perform_diff (i : Nat) (current desired : List α) :
    perform (fun _ => true) i (diff current desired) current.toFinset = desired.toFinset := by
  ext x
  unfold diff
  rw [perform_append, mem_perform_add, mem_perform_remove]
  simp only [List.mem_toFinset, List.mem_filter, decide_eq_true_eq]
  constructor
  · rintro (⟨hcurrent, hkept⟩ | ⟨hdesired, -⟩)
    · by_contra hx
      exact hkept ⟨hcurrent, hx⟩
    · exact hdesired
  · intro hx
    by_cases hcurrent : x ∈ current
    · exact .inl ⟨hcurrent, fun hremoved => hremoved.2 hx⟩
    · exact .inr ⟨hx, hcurrent⟩

theorem diff_eq_nil {current desired : List α} (h : current.toFinset = desired.toFinset) :
    diff current desired = [] := by
  have hmem (x : α) : x ∈ current ↔ x ∈ desired := by
    rw [← List.mem_toFinset, h, List.mem_toFinset]
  unfold diff
  rw [List.filter_eq_nil_iff.mpr fun x hx => by simpa using (hmem x).mp hx,
    List.filter_eq_nil_iff.mpr fun x hx => by simpa using (hmem x).mpr hx]
  rfl

/-! ## With failures -/

/-- Nothing wanted is removed, and nothing else added. -/
theorem mem_diff {current desired : List α} {e : Edit α} (h : e ∈ diff current desired) :
    (∃ x, e = .remove x ∧ x ∉ desired) ∨ ∃ x, e = .add x ∧ x ∈ desired := by
  unfold diff at h
  rw [List.mem_append, List.mem_map, List.mem_map] at h
  rcases h with ⟨x, hx, rfl⟩ | ⟨x, hx, rfl⟩
  · left
    exact ⟨x, rfl, by simpa using (List.mem_filter.mp hx).2⟩
  · right
    exact ⟨x, rfl, (List.mem_filter.mp hx).1⟩

/-! ## How much is there -/

theorem perform_remove_subset (ok : Nat → Bool) (i : Nat) (l : List α) (s : Finset α) :
    perform ok i (l.map .remove) s ⊆ s := by
  induction l generalizing i s with
  | nil => exact Finset.Subset.refl s
  | cons y l ih =>
    rw [List.map_cons, perform]
    apply (ih _ _).trans
    unfold attempt
    split
    · exact Finset.erase_subset y s
    · exact Finset.Subset.refl s

theorem card_perform_remove (ok : Nat → Bool) (i : Nat) {l : List α} (hl : l.Nodup) {s : Finset α}
    (h : ∀ x ∈ l, x ∈ s) :
    (perform ok i (l.map .remove) s).card + l.length = s.card + (List.range' i l.length).countP fun j => !ok j := by
  induction l generalizing i s with
  | nil => rfl
  | cons y l ih =>
    obtain ⟨hy, hl⟩ := List.nodup_cons.mp hl
    rw [List.map_cons, perform, List.length_cons, List.range'_succ, List.countP_cons]
    unfold attempt
    cases ok i with
    | true =>
      have hnext := ih (i + 1) hl (s := s.erase y) fun x hx =>
        Finset.mem_erase.mpr ⟨fun hxy => hy (hxy ▸ hx), h x (List.mem_cons_of_mem y hx)⟩
      have hcard := Finset.card_erase_add_one (h y List.mem_cons_self)
      rw [if_pos rfl, if_neg (by decide), Edit.apply]
      omega
    | false =>
      have hnext := ih (i + 1) hl (s := s) fun x hx => h x (List.mem_cons_of_mem y hx)
      rw [if_neg (by decide), if_pos (by decide)]
      omega

theorem moments_remove (ok : Nat → Bool) (i : Nat) (l : List α) (s : Finset α) :
    ∀ m ∈ moments ok i (l.map .remove) s, (∃ x, m.1 = .remove x) ∧ m.2.card ≤ s.card := by
  induction l generalizing i s with
  | nil =>
    intro m hm
    cases hm
  | cons y l ih =>
    intro m hm
    rw [List.map_cons, moments, List.mem_cons] at hm
    rcases hm with rfl | hm
    · exact ⟨⟨y, rfl⟩, Nat.le_refl _⟩
    · obtain ⟨hedit, hcard⟩ := ih _ _ m hm
      refine ⟨hedit, Nat.le_trans hcard (Finset.card_le_card ?_)⟩
      exact perform_remove_subset ok i [y] s

theorem card_attempt_add (ok : Nat → Bool) (i : Nat) {s : Finset α} {y : α} (h : y ∉ s) :
    (attempt ok i s (.add y)).card = s.card + if ok i then 1 else 0 := by
  unfold attempt
  split
  · exact Finset.card_insert_of_notMem h
  · rfl

theorem notMem_attempt_add (ok : Nat → Bool) (i : Nat) {s : Finset α} {x y : α} (hx : x ∉ s) (hxy : x ≠ y) :
    x ∉ attempt ok i s (.add y) := by
  unfold attempt Edit.apply
  split
  · rw [Finset.mem_insert, not_or]
    exact ⟨hxy, hx⟩
  · exact hx

theorem card_perform_add (ok : Nat → Bool) (i : Nat) {l : List α} (hl : l.Nodup) {s : Finset α} (h : ∀ x ∈ l, x ∉ s) :
    (perform ok i (l.map .add) s).card = s.card + (List.range' i l.length).countP ok := by
  induction l generalizing i s with
  | nil => rfl
  | cons y l ih =>
    obtain ⟨hy, hl⟩ := List.nodup_cons.mp hl
    have hnext := ih (i + 1) hl (s := attempt ok i s (.add y)) fun x hx =>
      notMem_attempt_add ok i (h x (List.mem_cons_of_mem y hx)) fun hxy => hy (hxy ▸ hx)
    rw [List.map_cons, perform, hnext, card_attempt_add ok i (h y List.mem_cons_self), List.length_cons,
      List.range'_succ, List.countP_cons]
    omega

/-- Every add finds room for itself exactly when the last one does. -/
theorem moments_add_iff (ok : Nat → Bool) (cap i : Nat) {l : List α} (hl : l.Nodup) {s : Finset α}
    (h : ∀ x ∈ l, x ∉ s) :
    (∀ m ∈ moments ok i (l.map .add) s, m.2.card < cap) ↔
      l = [] ∨ s.card + (List.range' i (l.length - 1)).countP ok < cap := by
  induction l generalizing i s with
  | nil => simp [moments]
  | cons y l ih =>
    obtain ⟨hy, hl⟩ := List.nodup_cons.mp hl
    have hnext := ih (i + 1) hl (s := attempt ok i s (.add y)) fun x hx =>
      notMem_attempt_add ok i (h x (List.mem_cons_of_mem y hx)) fun hxy => hy (hxy ▸ hx)
    rw [card_attempt_add ok i (h y List.mem_cons_self)] at hnext
    rw [List.map_cons, moments, List.forall_mem_cons, hnext, List.length_cons, Nat.add_sub_cancel]
    cases l with
    | nil => simp
    | cons z l =>
      rw [List.length_cons, Nat.add_sub_cancel, List.range'_succ, List.countP_cons]
      simp only [reduceCtorEq, false_or]
      omega

/-! ## A bound -/

/-- The part that is both there and wanted. -/
theorem exists_kept {current desired : List α} (hcurrent : current.Nodup) (hdesired : desired.Nodup) :
    ∃ kept, current.length = kept + (current.filter (· ∉ desired)).length ∧
      desired.length = kept + (desired.filter (· ∉ current)).length := by
  have hperm : (current.filter (· ∈ desired)).Perm (desired.filter (· ∈ current)) := by
    apply (List.perm_ext_iff_of_nodup (hcurrent.filter _) (hdesired.filter _)).mpr
    intro x
    simp only [List.mem_filter, decide_eq_true_eq]
    exact and_comm
  have hc := List.length_eq_length_filter_add (l := current) fun x => decide (x ∈ desired)
  have hd := List.length_eq_length_filter_add (l := desired) fun x => decide (x ∈ current)
  refine ⟨(current.filter (· ∈ desired)).length, ?_, ?_⟩
  · simpa using hc
  · rw [hperm.length_eq]
    simpa using hd

/-- The larger of the two sizes bounds the set at every edit, with room for what is added. -/
def Bounded (ok : Nat → Bool) (i : Nat) (current desired : List α) (s : Finset α) : Prop :=
  (∀ m ∈ moments ok i (diff current desired) s, m.2.card ≤ max current.length desired.length ∧
      ∀ x, m.1 = .add x → m.2.card < max current.length desired.length) ∧
    (perform ok i (diff current desired) s).card ≤ max current.length desired.length

/-- Nothing to add, or the removes that fail and the adds that succeed before the last one are fewer
than the larger of the numbers of removes and adds. -/
def Affordable (ok : Nat → Bool) (i removes adds : Nat) : Prop :=
  adds = 0 ∨ ((List.range' i removes).countP fun j => !ok j) + (List.range' (i + removes) (adds - 1)).countP ok <
    max removes adds

theorem countP_range'_le (ok : Nat → Bool) (i n : Nat) :
    (List.range' i n).countP ok ≤ (List.range' i (n - 1)).countP ok + 1 := by
  cases n with
  | zero => exact Nat.zero_le _
  | succ n =>
    rw [Nat.add_sub_cancel, List.range'_1_concat, List.countP_append, List.countP_singleton]
    split <;> omega

theorem bounded_iff (ok : Nat → Bool) (i : Nat) {current desired : List α} (hcurrent : current.Nodup)
    (hdesired : desired.Nodup) :
    Bounded ok i current desired current.toFinset ↔
      Affordable ok i (current.filter (· ∉ desired)).length (desired.filter (· ∉ current)).length := by
  obtain ⟨kept, hc, hd⟩ := exists_kept hcurrent hdesired
  have hcard := List.toFinset_card_of_nodup hcurrent
  have hremoves := moments_remove ok i (current.filter (· ∉ desired)) current.toFinset
  have hleft := card_perform_remove ok i (hcurrent.filter (· ∉ desired)) (s := current.toFinset) fun x hx =>
    List.mem_toFinset.mpr (List.mem_of_mem_filter hx)
  have hcount (p : Nat → Bool) (start n : Nat) : (List.range' start n).countP p ≤ n :=
    Nat.le_trans List.countP_le_length (Nat.le_of_eq List.length_range')
  have hfailed := hcount (fun j => !ok j) i (current.filter (· ∉ desired)).length
  have hsubset := perform_remove_subset ok i (current.filter (· ∉ desired)) current.toFinset
  unfold Bounded Affordable diff
  rw [moments_append, perform_append, List.length_map]
  generalize perform ok i ((current.filter (· ∉ desired)).map .remove) current.toFinset = left at hleft hsubset
  have hnew (x : α) (hx : x ∈ desired.filter (· ∉ current)) : x ∉ left := by
    intro hmem
    have hnot := (List.mem_filter.mp hx).2
    exact of_decide_eq_true hnot (List.mem_toFinset.mp (hsubset hmem))
  have hadds := moments_add_iff ok (max current.length desired.length) (i + (current.filter (· ∉ desired)).length)
    (hdesired.filter (· ∉ current)) hnew
  have hend := card_perform_add ok (i + (current.filter (· ∉ desired)).length) (hdesired.filter (· ∉ current)) hnew
  have hadded := hcount ok (i + (current.filter (· ∉ desired)).length) (desired.filter (· ∉ current)).length
  have hlast := countP_range'_le ok (i + (current.filter (· ∉ desired)).length) (desired.filter (· ∉ current)).length
  rw [← List.length_eq_zero_iff] at hadds
  constructor
  · rintro ⟨hmoments, -⟩
    have hroom := hadds.mp fun m hm => by
      obtain ⟨x, -, hx⟩ := List.mem_map.mp (edit_of_mem_moments hm)
      exact (hmoments m (List.mem_append_right _ hm)).2 x hx.symm
    omega
  · intro haffordable
    have hroom := hadds.mpr (by omega)
    refine ⟨?_, by omega⟩
    intro m hm
    rcases List.mem_append.mp hm with hm | hm
    · obtain ⟨⟨y, hy⟩, hle⟩ := hremoves m hm
      refine ⟨by omega, ?_⟩
      intro x hx
      rw [hy] at hx
      cases hx
    · have hlt := hroom m hm
      exact ⟨Nat.le_of_lt hlt, fun _ _ => hlt⟩

end SetEdits
