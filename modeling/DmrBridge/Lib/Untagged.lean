import DmrBridge.Lib.Run
import Mathlib.Data.List.ReduceOption

/-!
# Replies without tags

A link where a call adds its reply to those that are due and reads the oldest of them, unless it
gives up. Nothing ties a reply to its call but the order. What is known of the abstract link then
holds of every link that carries it.
-/

open Run

namespace Untagged

/-- A step function with one output, as one with a list of them. -/
def single {S A O : Type} (step : S → A → S × O) (s : S) (a : A) : S × List O := ((step s a).1, [(step s a).2])

theorem length_single {S A O : Type} (step : S → A → S × O) (s : S) (as : List A) :
    (exec (single step) s as).2.length = as.length := by
  induction as generalizing s with
  | nil => rfl
  | cons a as ih =>
    rw [exec, List.length_append, ih, List.length_cons, Nat.add_comm]
    rfl

variable {R : Type}

/-- The reply that the call brings, and whether the call gives up before it has read one. -/
structure Call (R : Type) where
  own : R
  gaveUp : Bool

def step (due : List R) (c : Call R) : List R × Option R :=
  if c.gaveUp then (due ++ [c.own], none) else ((due ++ [c.own]).tail, (due ++ [c.own]).head?)

/-- How many of the calls gave up. -/
def missed (log : List (Option R)) : Nat := log.countP (·.isNone)

theorem step_conserves (due : List R) (c : Call R) : (step due c).2.toList ++ (step due c).1 = due ++ [c.own] := by
  unfold step
  split
  · rfl
  · cases due with
    | nil => rfl
    | cons r due => rfl

/-- Replies are read in order and each once; what is left is due. -/
theorem exec_conserves (due : List R) (calls : List (Call R)) :
    (exec (single step) due calls).2.reduceOption ++ (exec (single step) due calls).1 = due ++ calls.map (·.own) := by
  induction calls using List.reverseRecOn with
  | nil => exact (List.append_nil due).symm
  | append_singleton calls c ih =>
    have hone : (single step (exec (single step) due calls).1 c).2.reduceOption =
        (step (exec (single step) due calls).1 c).2.toList := by
      unfold single
      cases (step (exec (single step) due calls).1 c).2 <;> rfl
    rw [exec_snoc]
    dsimp only
    rw [List.reduceOption_append, hone, List.append_assoc, single, step_conserves, ← List.append_assoc, ih,
      List.append_assoc, List.map_append]
    rfl

theorem length_reads (log : List (Option R)) : log.reduceOption.length + missed log = log.length := by
  induction log with
  | nil => rfl
  | cons entry log ih =>
    cases entry with
    | none =>
      rw [List.reduceOption_cons_of_none, missed, List.countP_cons_of_pos rfl, List.length_cons, ← Nat.add_assoc]
      exact congrArg (· + 1) ih
    | some r =>
      rw [List.reduceOption_cons_of_some, missed, List.countP_cons_of_neg Bool.false_ne_true, List.length_cons,
        List.length_cons, Nat.add_right_comm]
      exact congrArg (· + 1) ih

/-- A call that reads gets the reply of the call before it by as many as have given up. -/
theorem read_eq (calls : List (Call R)) (c : Call R) :
    (step (exec (single step) [] calls).1 c).2 = none ∨
      (step (exec (single step) [] calls).1 c).2 =
        ((calls ++ [c]).map (·.own))[calls.length - missed (exec (single step) [] calls).2]? := by
  have hconserves := exec_conserves [] calls
  have hreads := length_reads (exec (single step) [] calls).2
  rw [length_single] at hreads
  have hindex : calls.length - missed (exec (single step) [] calls).2 =
      (exec (single step) [] calls).2.reduceOption.length := by omega
  by_cases hgave : c.gaveUp = true
  · left
    rw [step, if_pos hgave]
  · right
    rw [step, if_neg hgave, hindex, List.map_append, ← List.nil_append (calls.map (·.own)), ← hconserves,
      List.append_assoc, List.getElem?_append_right (Nat.le_refl _), Nat.sub_self, List.head?_eq_getElem?]
    rfl

/-- Where no call gave up and the last one read a reply that only its own can be, nothing was due at the start. -/
theorem due_nil {P : R → Prop} {due : List R} {calls : List (Call R)} {c : Call R}
    (hold : ∀ r ∈ due ++ calls.map (·.own), ¬ P r) (hall : missed (exec (single step) due (calls ++ [c])).2 = 0)
    (hlast : ∃ r ∈ (step (exec (single step) due calls).1 c).2, P r) : due = [] := by
  obtain ⟨r, hread, hr⟩ := hlast
  have hconserves := exec_conserves due (calls ++ [c])
  have hreads := length_reads (exec (single step) due (calls ++ [c])).2
  rw [hall, length_single, List.length_append] at hreads
  rw [exec_snoc] at hconserves hreads
  dsimp only [single] at hconserves hreads
  rw [hread, List.reduceOption_append, List.reduceOption_singleton] at hconserves hreads
  rw [List.map_append, ← List.append_assoc] at hconserves
  rw [List.length_append] at hreads
  generalize (exec (single step) due calls).2.reduceOption = early at hconserves hreads
  have hlength : early.length = calls.length := Nat.add_right_cancel hreads
  cases due with
  | nil => rfl
  | cons late due =>
    -- then the reply that was read last is one of those due or owned before it
    have hbound : early.length < (late :: due ++ calls.map (·.own)).length := by
      rw [List.length_append, List.length_map, List.length_cons]
      omega
    have hmem : (late :: due ++ calls.map (·.own) ++ [c].map (·.own))[early.length]? = some r := by
      rw [← hconserves, List.append_assoc, List.getElem?_append_right (Nat.le_refl _), Nat.sub_self]
      rfl
    rw [List.getElem?_append_left hbound] at hmem
    exact absurd hr (hold r (List.mem_of_getElem? hmem))

/-- Where nothing was due at the start and no call gave up, nothing is due at the end. -/
theorem exec_nil_due {calls : List (Call R)} (hall : missed (exec (single step) [] calls).2 = 0) :
    (exec (single step) [] calls).1 = [] := by
  have hconserves := congrArg List.length (exec_conserves [] calls)
  have hreads := length_reads (exec (single step) [] calls).2
  rw [hall, length_single] at hreads
  rw [List.length_append, List.nil_append, List.length_map, ← hreads] at hconserves
  exact List.eq_nil_of_length_eq_zero (Nat.add_eq_left.mp hconserves)

/-! ## Links -/

variable {S A T O : Type}

/-- A link between a caller and a peer that serves its calls. Under `ok`, its steps are those of the abstract one. -/
structure Link (S A T O R : Type) where
  step : S → A → S × O
  serve : T → A → T × R
  peer : S → T
  Due : S → List R → Prop
  ok : S → A → Prop
  result : Option R → O
  lost : O → Bool
  lost_result : ∀ read, lost (result read) = read.isNone
  carries : ∀ {s due a}, Due s due → ok s a → ∃ gaveUp,
    (step s a).2 = result (Untagged.step due ⟨(serve (peer s) a).2, gaveUp⟩).2 ∧
    Due (step s a).1 (Untagged.step due ⟨(serve (peer s) a).2, gaveUp⟩).1 ∧ peer (step s a).1 = (serve (peer s) a).1

namespace Link

variable (l : Link S A T O R)

abbrev run (s : S) (as : List A) : S × List O := exec (single l.step) s as

/-- The replies of the peer to calls in turn. -/
abbrev served (t : T) (as : List A) : T × List R := exec (single l.serve) t as

/-- The calls meet what the link needs of them. -/
abbrev Ok (s : S) (as : List A) : Prop := Along (fun s a => some (l.step s a).1) l.ok s as

theorem simulates {s : S} {due : List R} (h : l.Due s due) {as : List A} (hok : l.Ok s as) :
    ∃ calls : List (Call R), calls.map (·.own) = (l.served (l.peer s) as).2 ∧
      (l.run s as).2 = (exec (single Untagged.step) due calls).2.map l.result ∧
      l.Due (l.run s as).1 (exec (single Untagged.step) due calls).1 ∧
      l.peer (l.run s as).1 = (l.served (l.peer s) as).1 := by
  induction as generalizing s due with
  | nil => exact ⟨[], rfl, rfl, h, rfl⟩
  | cons a as ih =>
    obtain ⟨gaveUp, hresult, hdue, hnext⟩ := l.carries h hok.1
    obtain ⟨calls, howns, hresults, hlast, hend⟩ := ih hdue (hok.2 _ rfl)
    rw [hnext] at howns hend
    refine ⟨⟨(l.serve (l.peer s) a).2, gaveUp⟩ :: calls, ?_, ?_, hlast, hend⟩
    · rw [List.map_cons, howns]
      rfl
    · show [(l.step s a).2] ++ (l.run (l.step s a).1 as).2 = _
      rw [hresult, hresults, ← List.map_singleton, ← List.map_append]
      rfl

theorem countP_lost (log : List (Option R)) : (log.map l.result).countP l.lost = missed log := by
  rw [List.countP_map, missed]
  exact List.countP_congr fun read _ => by rw [Function.comp_apply, l.lost_result]

/-- With nothing due at the start, a call gives up or returns the reply to the call as many before it as have given up
so far. -/
theorem order {s : S} (h : l.Due s []) {as : List A} {a : A} (hok : l.Ok s (as ++ [a])) :
    (l.step (l.run s as).1 a).2 = l.result none ∨
      ∃ reply, (l.served (l.peer s) (as ++ [a])).2[as.length - (l.run s as).2.countP l.lost]? = some reply ∧
        (l.step (l.run s as).1 a).2 = l.result (some reply) := by
  obtain ⟨hpast, hnow⟩ := (@along_exec_append _ _ _ (single l.step) _ _ _ _).mp hok
  obtain ⟨calls, howns, hresults, hdue, hend⟩ := l.simulates h hpast
  obtain ⟨gaveUp, hresult, -, -⟩ := l.carries hdue hnow.1
  generalize hc : Call.mk (l.serve (l.peer (l.run s as).1) a).2 gaveUp = c at hresult
  have hreplies : (calls ++ [c]).map (·.own) = (l.served (l.peer s) (as ++ [a])).2 := by
    rw [served, exec_snoc, List.map_append, howns, ← hend, List.map_singleton, ← hc]
    rfl
  have hlength : calls.length = as.length := by
    rw [← length_single l.serve (l.peer s) as, ← howns, List.length_map]
  rcases read_eq calls c with hnone | hread
  · left
    rw [hresult, hnone]
  · rw [hread, hreplies, hlength, ← l.countP_lost, ← hresults] at hresult
    cases hindex : (l.served (l.peer s) (as ++ [a])).2[as.length - (l.run s as).2.countP l.lost]? with
    | none =>
      left
      rw [hresult, hindex]
    | some reply =>
      right
      exact ⟨reply, rfl, by rw [hresult, hindex]⟩

/-- Calls that all read, the last of them a reply that only its own can be, leave nothing due. -/
theorem settled {P : R → Prop} {s : S} {due : List R} (h : l.Due s due) (hdue : ∀ r ∈ due, ¬ P r) {as : List A} {a : A}
    (hearly : ∀ r ∈ (l.served (l.peer s) as).2, ¬ P r) (hok : l.Ok s (as ++ [a]))
    (hall : (l.run s (as ++ [a])).2.countP l.lost = 0)
    (hlast : ∀ read, (l.step (l.run s as).1 a).2 = l.result read → ∃ r ∈ read, P r) :
    due = [] ∧ l.Due (l.run s (as ++ [a])).1 [] := by
  obtain ⟨hpast, hnow⟩ := (@along_exec_append _ _ _ (single l.step) _ _ _ _).mp hok
  obtain ⟨calls, howns, hresults, hmid, -⟩ := l.simulates h hpast
  obtain ⟨gaveUp, hresult, hend, -⟩ := l.carries hmid hnow.1
  generalize Call.mk (l.serve (l.peer (l.run s as).1) a).2 gaveUp = c at hresult hend
  have hmissed : missed (exec (single Untagged.step) due (calls ++ [c])).2 = 0 := by
    rw [← l.countP_lost, ← hall, run, exec_snoc, exec_snoc, List.map_append, ← hresults]
    dsimp only [single]
    rw [hresult]
    rfl
  have hnil : due = [] := by
    apply due_nil (P := P) _ hmissed
    · exact hlast _ hresult
    · rw [howns]
      exact List.forall_mem_append.mpr ⟨hdue, hearly⟩
  subst hnil
  have hfinal := exec_nil_due hmissed
  rw [exec_snoc] at hfinal
  refine ⟨rfl, ?_⟩
  rw [run, exec_snoc]
  exact hfinal ▸ hend

end Link

end Untagged
