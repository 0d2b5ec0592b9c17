import Mathlib.Data.List.Forall2
import Mathlib.Data.List.Induction

/-!
# Runs of step functions

`exec` runs a machine that accepts every input and logs what it puts out. `runs` runs a system
whose steps have guards. Each has one rule: what holds at the start and is kept by a step holds
after every run.
-/

namespace Run

variable {S A O : Type}

/-! ## Machines with output -/

def exec (step : S → A → S × List O) (s : S) : List A → S × List O
  | [] => (s, [])
  | a :: as => ((exec step (step s a).1 as).1, (step s a).2 ++ (exec step (step s a).1 as).2)

@[simp]
theorem exec_nil (step : S → A → S × List O) (s : S) : exec step s [] = (s, []) := rfl

theorem exec_append (step : S → A → S × List O) (s : S) (as bs : List A) :
    exec step s (as ++ bs) =
      ((exec step (exec step s as).1 bs).1, (exec step s as).2 ++ (exec step (exec step s as).1 bs).2) := by
  induction as generalizing s with
  | nil => simp
  | cons a as ih => simp [exec, ih]

theorem exec_snoc (step : S → A → S × List O) (s : S) (as : List A) (a : A) :
    exec step s (as ++ [a]) =
      ((step (exec step s as).1 a).1, (exec step s as).2 ++ (step (exec step s as).1 a).2) := by
  simp [exec_append, exec]

theorem exec_invariant {step : S → A → S × List O} (Inv : S → List O → Prop)
    (hstep : ∀ s log a, Inv s log → Inv (step s a).1 (log ++ (step s a).2))
    {s : S} (h : Inv s []) (as : List A) : Inv (exec step s as).1 (exec step s as).2 := by
  induction as using List.reverseRecOn with
  | nil => exact h
  | append_singleton as a ih =>
    rw [exec_snoc]
    exact hstep _ _ a ih

/-- The states of a run do not depend on what is logged. -/
theorem exec_fst_congr {B : Type} {step : S → A → S × List O} {step' : S → A → S × List B}
    (h : ∀ s a, (step s a).1 = (step' s a).1) (s : S) (as : List A) : (exec step s as).1 = (exec step' s as).1 := by
  induction as generalizing s with
  | nil => rfl
  | cons a as ih => rw [exec, exec, ih, h]

/-- Machines whose steps match have runs that match; `f` translates the inputs. -/
theorem exec_simulation {T B P : Type} {step : S → A → S × List O} {step' : T → B → T × List P}
    {R : S → T → Prop} {agree : O → P → Prop} {f : A → B}
    (hstep : ∀ s t a, R s t →
      R (step s a).1 (step' t (f a)).1 ∧ List.Forall₂ agree (step s a).2 (step' t (f a)).2)
    {s : S} {t : T} (h : R s t) (as : List A) :
    R (exec step s as).1 (exec step' t (as.map f)).1 ∧
      List.Forall₂ agree (exec step s as).2 (exec step' t (as.map f)).2 := by
  induction as generalizing s t with
  | nil => exact ⟨h, .nil⟩
  | cons a as ih =>
    obtain ⟨hnext, hout⟩ := hstep s t a h
    obtain ⟨hend, houts⟩ := ih hnext
    exact ⟨hend, List.rel_append hout houts⟩

/-! ## Systems with guards -/

theorem foldlM_fixed {M : Type → Type} [Monad M] [LawfulMonad M] {step : S → A → M S} {s : S}
    (h : ∀ a, step s a = pure s) (as : List A) : as.foldlM step s = pure s := by
  induction as with
  | nil => rfl
  | cons a as ih => rw [List.foldlM_cons, h, pure_bind, ih]

def runs (step : S → A → Option S) (s : S) (as : List A) : Option S := as.foldlM step s

/-- Every step of the run meets `ok` in the state it starts from. -/
def Along (step : S → A → Option S) (ok : S → A → Prop) : S → List A → Prop
  | _, [] => True
  | s, a :: as => ok s a ∧ ∀ t, step s a = some t → Along step ok t as

instance decidableAlong {step : S → A → Option S} {ok : S → A → Prop} [∀ s a, Decidable (ok s a)] :
    ∀ s as, Decidable (Along step ok s as)
  | _, [] => .isTrue trivial
  | s, a :: as =>
    have : ∀ t, Decidable (Along step ok t as) := fun t => decidableAlong t as
    inferInstanceAs (Decidable (ok s a ∧ ∀ t ∈ step s a, Along step ok t as))

/-- Two conditions that agree on an invariant kept under one of them hold along the same runs. -/
theorem along_congr_of_invariant {step : S → A → Option S} {p q : S → A → Prop} (Inv : S → Prop)
    (hstep : ∀ s a t, Inv s → q s a → step s a = some t → Inv t) (h : ∀ s a, Inv s → (p s a ↔ q s a))
    {s : S} (hs : Inv s) (as : List A) : Along step p s as ↔ Along step q s as := by
  induction as generalizing s with
  | nil => exact Iff.rfl
  | cons a as ih =>
    constructor
    · rintro ⟨hp, hrest⟩
      have hq := (h s a hs).mp hp
      exact ⟨hq, fun t ht => (ih (hstep s a t hs hq ht)).mp (hrest t ht)⟩
    · rintro ⟨hq, hrest⟩
      exact ⟨(h s a hs).mpr hq, fun t ht => (ih (hstep s a t hs hq ht)).mpr (hrest t ht)⟩

/-- What an invariant gives at each step holds along every run. -/
theorem along_of_invariant {step : S → A → Option S} {ok : S → A → Prop} (Inv : S → Prop)
    (hstep : ∀ s a t, Inv s → step s a = some t → Inv t) (h : ∀ s a, Inv s → ok s a) {s : S} (hs : Inv s)
    (as : List A) : Along step ok s as := by
  induction as generalizing s with
  | nil => trivial
  | cons a as ih => exact ⟨h s a hs, fun t ht => ih (hstep s a t hs ht)⟩

theorem along_congr {step : S → A → Option S} {p q : S → A → Prop} (h : ∀ s a, p s a ↔ q s a)
    (s : S) (as : List A) : Along step p s as ↔ Along step q s as :=
  along_congr_of_invariant (fun _ => True) (fun _ _ _ _ _ _ => trivial) (fun s a _ => h s a) trivial as

theorem forall_log_iff (step : S → A → S × List O) (p : O → Prop) (s : S) (as : List A) :
    (∀ o ∈ (exec step s as).2, p o) ↔
      Along (fun s a => some (step s a).1) (fun s a => ∀ o ∈ (step s a).2, p o) s as := by
  induction as generalizing s with
  | nil => simp [Along]
  | cons a as ih => simp [exec, Along, or_imp, forall_and, ih]

theorem along_and {step : S → A → Option S} {p q : S → A → Prop} {s : S} {as : List A} (hp : Along step p s as)
    (hq : Along step q s as) : Along step (fun s a => p s a ∧ q s a) s as := by
  induction as generalizing s with
  | nil => trivial
  | cons a as ih => exact ⟨⟨hp.1, hq.1⟩, fun t ht => ih (hp.2 t ht) (hq.2 t ht)⟩

theorem along_mono {step : S → A → Option S} {p q : S → A → Prop} (h : ∀ s a, p s a → q s a) {s : S} {as : List A}
    (hp : Along step p s as) : Along step q s as := by
  induction as generalizing s with
  | nil => trivial
  | cons a as ih => exact ⟨h s a hp.1, fun t ht => ih (hp.2 t ht)⟩

theorem along_of_forall {step : S → A → Option S} {ok : S → A → Prop} (h : ∀ s a, ok s a) (s : S) (as : List A) :
    Along step ok s as := by
  apply along_of_invariant fun _ => True
  · intro s a t _ _
    trivial
  · intro s a _
    exact h s a
  · trivial

theorem along_of_mem {step : S → A → Option S} {ok : A → Prop} {as : List A} (h : ∀ a ∈ as, ok a) (s : S) :
    Along step (fun _ a => ok a) s as := by
  induction as generalizing s with
  | nil => trivial
  | cons a as ih => exact ⟨h a List.mem_cons_self, fun t _ => ih (fun b hb => h b (List.mem_cons_of_mem a hb)) t⟩

/-- What a step under `ok` keeps, a run of a machine with output keeps whose steps meet `ok`. -/
theorem exec_invariant_along {step : S → A → S × List O} {ok : S → A → Prop} (Inv : S → List O → Prop)
    (hstep : ∀ s log a, Inv s log → ok s a → Inv (step s a).1 (log ++ (step s a).2)) {s : S} {log : List O}
    (h : Inv s log) {as : List A} (hok : Along (fun s a => some (step s a).1) ok s as) :
    Inv (exec step s as).1 (log ++ (exec step s as).2) := by
  induction as generalizing s log with
  | nil => simpa using h
  | cons a as ih =>
    have hrest := ih (hstep s log a h hok.1) (hok.2 _ rfl)
    rwa [List.append_assoc] at hrest

/-- Along a run of a machine with output, what holds of a whole run holds of its two parts. -/
theorem along_exec_append {step : S → A → S × List O} {ok : S → A → Prop} {s : S} {as bs : List A} :
    Along (fun s a => some (step s a).1) ok s (as ++ bs) ↔
      Along (fun s a => some (step s a).1) ok s as ∧ Along (fun s a => some (step s a).1) ok (exec step s as).1 bs := by
  induction as generalizing s with
  | nil => exact ⟨fun h => ⟨trivial, h⟩, And.right⟩
  | cons a as ih =>
    constructor
    · intro h
      obtain ⟨hleft, hright⟩ := ih.mp (h.2 _ rfl)
      refine ⟨⟨h.1, fun t ht => ?_⟩, hright⟩
      cases ht
      exact hleft
    · intro h
      refine ⟨h.1.1, fun t ht => ?_⟩
      cases ht
      exact ih.mpr ⟨h.1.2 _ rfl, h.2⟩

theorem runs_cons (step : S → A → Option S) (s : S) (a : A) (as : List A) :
    runs step s (a :: as) = (step s a).bind fun t => runs step t as := by
  rw [runs, List.foldlM_cons]
  rfl

theorem runs_append {step : S → A → Option S} {s t : S} {as bs : List A} (h : runs step s as = some t) :
    runs step s (as ++ bs) = runs step t bs := by
  unfold runs at h ⊢
  rw [List.foldlM_append, h]
  rfl

theorem runs_snoc (step : S → A → Option S) (s : S) (as : List A) (a : A) :
    runs step s (as ++ [a]) = (runs step s as).bind fun t => step t a := by
  unfold runs
  rw [List.foldlM_append]
  simp

theorem along_append {step : S → A → Option S} {ok : S → A → Prop} {s t : S} {as bs : List A}
    (hrun : runs step s as = some t) (has : Along step ok s as) (hbs : Along step ok t bs) :
    Along step ok s (as ++ bs) := by
  induction as generalizing s with
  | nil =>
    cases hrun
    exact hbs
  | cons a as ih =>
    refine ⟨has.1, fun u hu => ?_⟩
    rw [runs_cons, hu] at hrun
    exact ih hrun (has.2 u hu)

/-- A system whose steps another one matches by runs of its own: its runs are matched too, and so is what holds along
them. -/
theorem runs_simulation {T B : Type} {step : S → A → Option S} {step' : T → B → Option T} {R : S → T → Prop}
    {ok : S → A → Prop} {ok' : T → B → Prop}
    (hstep : ∀ s t a s', R s t → ok s a → step s a = some s' →
      ∃ bs t', runs step' t bs = some t' ∧ Along step' ok' t bs ∧ R s' t')
    {s s' : S} {t : T} {as : List A} (h : R s t) (hok : Along step ok s as) (hrun : runs step s as = some s') :
    ∃ bs t', runs step' t bs = some t' ∧ Along step' ok' t bs ∧ R s' t' := by
  induction as generalizing s t with
  | nil =>
    cases hrun
    exact ⟨[], t, rfl, trivial, h⟩
  | cons a as ih =>
    rw [runs_cons] at hrun
    obtain ⟨u, hu, hrest⟩ := Option.bind_eq_some_iff.mp hrun
    obtain ⟨bs, v, hbs, halong, hmid⟩ := hstep s t a u h hok.1 hu
    obtain ⟨ds, w, hds, halong', hend⟩ := ih hmid (hok.2 u hu) hrest
    exact ⟨bs ++ ds, w, (runs_append hbs).trans hds, along_append hbs halong halong', hend⟩

/-- What a step under `ok` keeps, a run under `ok` keeps. -/
theorem runs_invariant {step : S → A → Option S} {ok : S → A → Prop} {Inv : S → Prop}
    (hstep : ∀ s a t, Inv s → ok s a → step s a = some t → Inv t) {s t : S} {as : List A}
    (h : Inv s) (hok : Along step ok s as) (hrun : runs step s as = some t) : Inv t := by
  induction as generalizing s with
  | nil =>
    cases hrun
    exact h
  | cons a as ih =>
    rw [runs_cons] at hrun
    obtain ⟨u, hu, hrest⟩ := Option.bind_eq_some_iff.mp hrun
    exact ih (hstep s a u h hok.1 hu) (hok.2 u hu) hrest

/-- What every step keeps, every run keeps. -/
theorem runs_keep {step : S → A → Option S} {Inv : S → Prop} (hstep : ∀ s a t, Inv s → step s a = some t → Inv t)
    {s t : S} {as : List A} (h : Inv s) (hrun : runs step s as = some t) : Inv t := by
  have hall : Along step (fun _ _ => True) s as := along_of_forall (fun _ _ => trivial) s as
  exact runs_invariant (fun s a t hs _ ht => hstep s a t hs ht) h hall hrun

/-- An invariant that knows what the run has taken so far. -/
theorem runs_invariant_past {step : S → A → Option S} {ok : S → A → Prop} {Inv : List A → S → Prop} {s t : S}
    {as : List A} (hstep : ∀ past s a t, past ++ [a] <+: as → Inv past s → ok s a → step s a = some t →
      Inv (past ++ [a]) t)
    (h : Inv [] s) (hok : Along step ok s as) (hrun : runs step s as = some t) : Inv as t := by
  have hrest (rest past : List A) (u : S) (hsplit : past ++ rest = as) (hu : Inv past u) (halong : Along step ok u rest)
      (hruns : runs step u rest = some t) : Inv as t := by
    induction rest generalizing past u with
    | nil =>
      cases hruns
      rw [List.append_nil] at hsplit
      rwa [hsplit] at hu
    | cons a rest ih =>
      rw [runs_cons] at hruns
      obtain ⟨v, hv, hruns⟩ := Option.bind_eq_some_iff.mp hruns
      have hsplit' : past ++ [a] ++ rest = as := by simpa using hsplit
      exact ih (past ++ [a]) v hsplit' (hstep past u a v ⟨rest, hsplit'⟩ hu halong.1 hv) (halong.2 v hv) hruns
  exact hrest as [] s rfl h hok hrun

/-- What a run has written down about itself: `note` sees each step that it takes and the state it is taken in. -/
def history {H : Type} (step : S → A → Option S) (note : S → H → A → H) : S → H → List A → H
  | _, h, [] => h
  | s, h, a :: as =>
    match step s a with
    | some t => history step note t (note s h a) as
    | none => h

/-- An invariant that reads the notes. -/
theorem runs_history {H : Type} {step : S → A → Option S} {note : S → H → A → H} {Inv : S → H → Prop}
    (hstep : ∀ s h a t, Inv s h → step s a = some t → Inv t (note s h a)) {s t : S} {h : H} {as : List A}
    (hs : Inv s h) (hrun : runs step s as = some t) : Inv t (history step note s h as) := by
  induction as generalizing s h with
  | nil =>
    cases hrun
    exact hs
  | cons a as ih =>
    rw [runs_cons] at hrun
    obtain ⟨u, hu, hrest⟩ := Option.bind_eq_some_iff.mp hrun
    have hend := ih (hstep s h a u hs hu) hrest
    simp only [history, hu]
    exact hend

end Run
