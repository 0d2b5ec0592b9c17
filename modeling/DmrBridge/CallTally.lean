import DmrBridge.Rx
import DmrBridge.Lib.Run
import Mathlib.Data.List.ModifyLast

/-!
# The frame events of each call

What `consume_events` adds up between two starts of a direction: VoiceFrame and Drop. Notes on what
the handlers took or passed on are kept with the call they belong to.
-/

open Run

namespace DmrBridge

variable {σ φ α : Type}

/-! ## Tallies -/

structure CallTally (α : Type) where
  notes : List α
  /-- VoiceFrame and Drop events. -/
  frames : Nat
  deriving DecidableEq

def Output.isFrame (dir : CallDirection) : Output → Bool
  | .stats (.voiceFrame d _) | .stats (.drop d) => d = dir
  | _ => false

def Output.startsCall (dir : CallDirection) : Output → Bool
  | .stats (.callStart d ..) => d = dir
  | _ => false

def CallTally.addFrames (t : CallTally α) (n : Nat) : CallTally α := { t with frames := t.frames + n }
def CallTally.addNotes (t : CallTally α) (notes : List α) : CallTally α := { t with notes := t.notes ++ notes }

def tallyOutput (dir : CallDirection) (calls : List (CallTally α)) (o : Output) : List (CallTally α) :=
  if o.startsCall dir then calls ++ [⟨[], 0⟩]
  else if o.isFrame dir then calls.modifyLast (·.addFrames 1)
  else calls

/-- The notes of a turn go to the call that is open after it. -/
def tallyTurn (dir : CallDirection) (calls : List (CallTally α)) (t : List α × List Output) : List (CallTally α) :=
  (t.2.foldl (tallyOutput dir) calls).modifyLast (·.addNotes t.1)

def annotated (P : Params σ φ) (note : Machine σ φ → Env × PttEvent → List α) (m : Machine σ φ) (e : Env × PttEvent) :
    Machine σ φ × List (List α × List Output) :=
  ((turn P m e).1, [(note m e, (turn P m e).2)])

/-- The calls of direction `dir` in a run. -/
def callTallies (dir : CallDirection) (P : Params σ φ) (note : Machine σ φ → Env × PttEvent → List α)
    (m : Machine σ φ) (evs : List (Env × PttEvent)) : List (CallTally α) :=
  (exec (annotated P note) m evs).2.foldl (tallyTurn dir) []

/-! ## Folding outputs -/

theorem quiet_of_dir {dir : CallDirection} {o : Output} (h : o.dir ≠ dir) :
    o.startsCall dir = false ∧ o.isFrame dir = false := by
  match o with
  | .audio _ | .metadata _ | .voice .. | .control _ | .panicked => exact ⟨rfl, rfl⟩
  | .stats (.callEnd ..) => exact ⟨rfl, rfl⟩
  | .stats (.callStart ..) => exact ⟨decide_eq_false h, rfl⟩
  | .stats (.voiceFrame ..) | .stats (.drop _) => exact ⟨rfl, decide_eq_false h⟩

theorem modifyLast_id (calls : List α) : calls.modifyLast id = calls := by
  rcases List.eq_nil_or_concat calls with rfl | ⟨prior, call, rfl⟩
  · rfl
  · rw [List.concat_eq_append, List.modifyLast_concat]
    rfl

theorem modifyLast_modifyLast (f g : α → α) (calls : List α) :
    (calls.modifyLast f).modifyLast g = calls.modifyLast (g ∘ f) := by
  rcases List.eq_nil_or_concat calls with rfl | ⟨prior, call, rfl⟩
  · rfl
  · rw [List.concat_eq_append, List.modifyLast_concat, List.modifyLast_concat, List.modifyLast_concat]
    rfl

theorem tallyOutputs {dir : CallDirection} {outs : List Output} (h : ∀ o ∈ outs, o.startsCall dir = false)
    (calls : List (CallTally α)) :
    outs.foldl (tallyOutput dir) calls = calls.modifyLast (·.addFrames (outs.countP (·.isFrame dir))) := by
  induction outs generalizing calls with
  | nil => exact (modifyLast_id calls).symm
  | cons o outs ih =>
    rw [List.foldl_cons, ih fun o' ho' => h o' (List.mem_cons_of_mem o ho'), List.countP_cons, tallyOutput,
      h o List.mem_cons_self]
    by_cases hframe : o.isFrame dir = true
    · simp only [hframe, Bool.false_eq_true, if_false, if_true, modifyLast_modifyLast]
      congr 1
      funext t
      simp [CallTally.addFrames, Nat.add_assoc, Nat.add_comm 1]
    · simp only [hframe, Bool.false_eq_true, if_false, Nat.add_zero]

theorem tallyOutputs_quiet {dir : CallDirection} {outs : List Output}
    (h : ∀ o ∈ outs, o.startsCall dir = false ∧ o.isFrame dir = false) (calls : List (CallTally α)) :
    outs.foldl (tallyOutput dir) calls = calls := by
  have hcount : outs.countP (·.isFrame dir) = 0 := List.countP_eq_zero.mpr fun o ho => by simp [(h o ho).2]
  rw [tallyOutputs fun o ho => (h o ho).1, hcount]
  exact modifyLast_id calls

/-- A turn that opens no call, sends no frame event and leaves no note. -/
theorem tallyTurn_quiet {dir : CallDirection} {outs : List Output}
    (h : ∀ o ∈ outs, o.startsCall dir = false ∧ o.isFrame dir = false) (calls : List (CallTally α)) :
    tallyTurn dir calls ([], outs) = calls := by
  have hnotes : (fun t : CallTally α => t.addNotes []) = id := by
    funext t
    simp [CallTally.addNotes]
  rw [tallyTurn, tallyOutputs_quiet h, hnotes, modifyLast_id]

/-- A turn that opens no call, while one is open. -/
theorem tallyTurn_open {dir : CallDirection} {outs : List Output} (h : ∀ o ∈ outs, o.startsCall dir = false)
    (notes : List α) (prior : List (CallTally α)) (call : CallTally α) :
    tallyTurn dir (prior ++ [call]) (notes, outs) =
      prior ++ [(call.addFrames (outs.countP (·.isFrame dir))).addNotes notes] := by
  simp only [tallyTurn, tallyOutputs h, List.modifyLast_concat]

/-- A turn that opens a call, perhaps after it has closed one. -/
theorem tallyTurn_start {dir : CallDirection} {before outs : List Output} {start : Output}
    (hbefore : ∀ o ∈ before, o.startsCall dir = false ∧ o.isFrame dir = false) (hstart : start.startsCall dir = true)
    (h : ∀ o ∈ outs, o.startsCall dir = false) (notes : List α) (calls : List (CallTally α)) :
    tallyTurn dir calls (notes, before ++ start :: outs) = calls ++ [⟨notes, outs.countP (·.isFrame dir)⟩] := by
  have hopened : tallyOutput dir calls start = calls ++ [⟨[], 0⟩] := by rw [tallyOutput, if_pos hstart]
  simp only [tallyTurn, List.foldl_append, List.foldl_cons, tallyOutputs_quiet hbefore, hopened, tallyOutputs h,
    List.modifyLast_concat]
  simp [CallTally.addFrames, CallTally.addNotes]

/-- What every turn under `ok` keeps holds after every run whose turns meet `ok`. -/
theorem callTallies_invariant_along {dir : CallDirection} {P : Params σ φ}
    {note : Machine σ φ → Env × PttEvent → List α} {ok : Machine σ φ → Env × PttEvent → Prop}
    (Inv : Machine σ φ → List (CallTally α) → Prop)
    (hstep : ∀ m calls e, Inv m calls → ok m e → Inv (turn P m e).1 (tallyTurn dir calls (note m e, (turn P m e).2)))
    {m : Machine σ φ} (h : Inv m []) {evs : List (Env × PttEvent)} (hok : Along (turnState P) ok m evs) :
    Inv (exec (turn P) m evs).1 (callTallies dir P note m evs) := by
  have hstate : (exec (turn P) m evs).1 = (exec (annotated P note) m evs).1 := by
    apply exec_fst_congr
    intro m e
    rfl
  have hturn (m : Machine σ φ) (turns : List (List α × List Output)) (e : Env × PttEvent)
      (hm : Inv m (turns.foldl (tallyTurn dir) [])) (he : ok m e) :
      Inv (annotated P note m e).1 ((turns ++ (annotated P note m e).2).foldl (tallyTurn dir) []) := by
    rw [List.foldl_append]
    exact hstep m _ e hm he
  rw [hstate]
  have hstart : Inv m (([] : List (List α × List Output)).foldl (tallyTurn dir) []) := h
  exact exec_invariant_along (fun m turns => Inv m (turns.foldl (tallyTurn dir) [])) hturn hstart hok

theorem callTallies_invariant {dir : CallDirection} {P : Params σ φ}
    {note : Machine σ φ → Env × PttEvent → List α} (Inv : Machine σ φ → List (CallTally α) → Prop)
    (hstep : ∀ m calls e, Inv m calls → Inv (turn P m e).1 (tallyTurn dir calls (note m e, (turn P m e).2)))
    {m : Machine σ φ} (h : Inv m []) (evs : List (Env × PttEvent)) :
    Inv (exec (turn P) m evs).1 (callTallies dir P note m evs) :=
  callTallies_invariant_along Inv (fun m calls e hm _ => hstep m calls e hm) h
    (along_of_forall (fun _ _ => trivial) m evs)

end DmrBridge
